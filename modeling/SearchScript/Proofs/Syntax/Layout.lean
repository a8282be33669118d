import SearchScript.Proofs.Syntax.Shape
import SearchScript.Proofs.Syntax.Words

/-!
# What the printer writes

The printer writes the words of a tree in order, with blanks only between words that would else run
together. So the text of a tree is scanned as its words. Numbers are the exception: a literal with a
signed exponent is several tokens, a minus in front of a literal becomes a part of it, and so does a
point on either side. Trees without these are said to keep their numbers.

## Key results

- `Piece.Lays.indent`: the indentation of blocks changes blanks only
- `Expr.laysOut`, `Statement.laysOut`: the texts of trees are laid out as their words
-/

namespace SearchScript

namespace Piece

/-! ## Layouts -/

/-- A character that continues neither a word nor a number. -/
def isBreak (c : Char) : Bool := !continuesWord c && c != '.'

theorem continuesNumber_of_isBreak {c : Char} (h : isBreak c = true) :
    continuesNumber c = false := by
  simp only [isBreak, Bool.and_eq_true, Bool.not_eq_eq_eq_not, Bool.not_true, bne_iff_ne] at h
  obtain ⟨hword, hpoint⟩ := h
  rw [Bool.eq_false_iff] at hword ⊢
  refine fun hc => hword ?_
  simp only [continuesNumber, Bool.or_eq_true, Bool.and_eq_true, decide_eq_true_eq, beq_iff_eq]
    at hc
  unfold continuesWord Char.isAlphanum Char.isAlpha Char.isUpper Char.isLower
  simp only [Bool.or_eq_true, Bool.and_eq_true, decide_eq_true_eq, beq_iff_eq]
  rcases hc with ((((hd | ⟨ha, hf⟩) | ⟨ha, hf⟩) | rfl) | rfl) | rfl
  · exact .inl (.inr hd)
  · exact .inl (.inl (.inr ⟨ha, Nat.le_trans hf (by decide)⟩))
  · exact .inl (.inl (.inl ⟨ha, Nat.le_trans hf (by decide)⟩))
  · decide
  · decide
  · exact absurd rfl hpoint

theorem not_continuesWord_of_isBreak {next : Option Char} (h : next.all isBreak = true) :
    next.all (!continuesWord ·) = true := by
  cases next with
  | none => rfl
  | some c => exact (Bool.and_eq_true_iff.1 h).1

/-- Whether a text in front of a character consists of words in order, with blanks between them. -/
def Lays (next : Option Char) (ws : List Piece) (cs : List Char) : Prop :=
  ∃ ps, texts ps = cs ∧ solid ps = ws ∧ Written ps next

namespace Lays

variable {next x : Option Char} {ws vs : List Piece} {cs ds : List Char} {p : Piece}
  {kind : TokenKind} {text : String}

theorem nil : Lays next [] [] := ⟨[], rfl, rfl, trivial⟩

theorem prepend (h : Lays next vs ds) (h' : Lays (ds.head?.or next) ws cs) :
    Lays next (ws ++ vs) (cs ++ ds) := by
  obtain ⟨ps, rfl, rfl, hps⟩ := h'
  obtain ⟨qs, rfl, rfl, hqs⟩ := h
  exact ⟨ps ++ qs, texts_append, solid_append, written_append.2 ⟨hps, hqs⟩⟩

theorem cons (hp : p.Fits (cs.head?.or next)) (hs : p.isSolid = true) (h : Lays next ws cs) :
    Lays next (p :: ws) (p.text ++ cs) := by
  obtain ⟨ps, rfl, rfl, hps⟩ := h
  exact ⟨p :: ps, rfl, List.filter_cons_of_pos hs, hp, hps⟩

theorem single (hp : p.Fits next) (hs : p.isSolid = true) : Lays next [p] p.text :=
  ⟨[p], List.append_nil _, List.filter_cons_of_pos hs, hp, trivial⟩

theorem blank (h : Lays next ws cs) : Lays next ws (' ' :: cs) := by
  obtain ⟨ps, rfl, rfl, hps⟩ := h
  exact ⟨⟨.blank, [' ']⟩ :: ps, rfl, rfl, .blank (by simp) (by simp [isBlank]), hps⟩

theorem newline (h : Lays next ws cs) : Lays next ws ('\n' :: cs) := by
  obtain ⟨ps, rfl, rfl, hps⟩ := h
  exact ⟨⟨.blank, ['\n']⟩ :: ps, rfl, rfl, .blank (by simp) (by simp [isBlank]), hps⟩

theorem closed (h : Lays next ws cs) (kind : TokenKind) (c : Char)
    (hk : kind.isClosed = true) (hc : kind.describe = String.ofList [c]) :
    Lays next (symbol kind :: ws) (c :: cs) := by
  have := h.cons (.closed hk) rfl
  rw [symbol, hc, String.toList_ofList] at this
  rw [symbol, hc, String.toList_ofList]
  exact this

/-- An operator stands in front of an operand. -/
theorem operator (h : Lays next ws cs) (hk : kind ∈ TokenKind.operators)
    (hn : (cs.head?.or next).all opensOperand = true)
    (hd : kind = .minus ∨ kind = .period → (cs.head?.or next).all (!Char.isDigit ·) = true) :
    Lays next (symbol kind :: ws) (kind.describe.toList ++ cs) :=
  h.cons (.operator hk hn hd) rfl

/-- An operator stands between blanks. -/
theorem spaced (h : Lays next ws cs) (kind : TokenKind) (text : String)
    (hk : kind ∈ TokenKind.operators) (htext : kind.describe = text) :
    Lays next (symbol kind :: ws) (' ' :: (text.toList ++ ' ' :: cs)) :=
  htext ▸ (h.blank.operator hk rfl fun _ => rfl).blank

end Lays

/-! ## Words -/

/-- Whether a text is spelt like a word. -/
def isWord (text : String) : Bool :=
  match text.toList with
  | c :: cs => startsWord c && cs.all continuesWord
  | [] => false

theorem isWord_of_isIdentifier {text : String} (h : isIdentifier text = true) :
    isWord text = true := by
  unfold isIdentifier at h
  unfold isWord
  cases htext : text.toList with
  | nil => simp [htext] at h
  | cons c cs =>
    simp only [htext] at h ⊢
    exact (Bool.and_eq_true_iff.1 h).1

/-- A word starts with what opens operands, and not with a digit. -/
theorem exists_cons_of_isWord {text : String} (h : isWord text = true) :
    ∃ c cs, text.toList = c :: cs ∧ opensOperand c = true ∧ c.isDigit = false := by
  unfold isWord at h
  split at h
  case h_2 => cases h
  case h_1 c cs htext =>
    have hc := (Bool.and_eq_true_iff.1 h).1
    refine ⟨c, cs, htext, by simp [opensOperand, hc], Bool.eq_false_iff.2 fun hd => ?_⟩
    rw [startsWord_of_isDigit hd] at hc
    cases hc

/-- Whether the token is spelt like a word that is its own. -/
def isKeyword (kind : TokenKind) : Bool :=
  isWord kind.describe && TokenKind.ofWord kind.describe == kind

section Words

variable {next : Option Char} {ws : List Piece} {cs : List Char} {text : String} {kind : TokenKind}

theorem Lays.word (h : Lays next ws cs) (hw : isWord text = true)
    (hn : (cs.head?.or next).all (!continuesWord ·) = true) :
    Lays next (Piece.word text :: ws) (text.toList ++ cs) := by
  unfold isWord at hw
  split at hw
  case h_2 => cases hw
  case h_1 c w htext =>
    rw [Bool.and_eq_true, List.all_eq_true] at hw
    have hfits : (Piece.word text).Fits (cs.head?.or next) := by
      have := Fits.word hw.1 hw.2 hn
      rwa [← htext, String.ofList_toList] at this
    exact h.cons hfits rfl

theorem Lays.keyword (h : Lays next ws cs) (kind : TokenKind) (text : String)
    (hn : (cs.head?.or next).all (!continuesWord ·) = true)
    (hk : isKeyword kind = true) (htext : kind.describe = text) :
    Lays next (symbol kind :: ws) (text.toList ++ cs) := by
  obtain ⟨hw, hof⟩ := Bool.and_eq_true_iff.1 hk
  have := h.word hw hn
  rw [Piece.word, beq_iff_eq.1 hof] at this
  rwa [← htext]

end Words

/-! ## Indentation -/

/-- A line feed gets a tab behind it. -/
def indentChar (c : Char) : List Char := if c = '\n' then ['\n', '\t'] else [c]

theorem flatMap_indentChar {cs : List Char} (h : '\n' ∉ cs) : cs.flatMap indentChar = cs := by
  induction cs with
  | nil => rfl
  | cons c cs ih =>
    rw [List.mem_cons, not_or] at h
    rw [List.flatMap_cons, ih h.2, indentChar, if_neg (Ne.symm h.1), List.singleton_append]

/-- No line ends inside a token. -/
theorem Fits.newline_not_mem {p : Piece} {next : Option Char} (h : p.Fits next)
    (hp : p.isSolid = true) : '\n' ∉ p.text := by
  have hsymbol : ∀ kind ∈ TokenKind.operators, '\n' ∉ (symbol kind).text := by decide
  cases h with
  | blank => cases hp
  | word hc hcs =>
    rw [List.mem_cons, not_or]
    constructor
    · rintro rfl
      cases hc
    · intro hmem
      cases hcs _ hmem
  | number hbody htext =>
    obtain ⟨d, ds, rfl, hd, hds⟩ := hbody
    have hbody : '\n' ∉ d :: ds := by
      rw [List.mem_cons, not_or]
      constructor
      · rintro rfl
        cases hd
      · intro hmem
        cases List.all_eq_true.1 hds _ hmem
    rcases htext with rfl | rfl
    · exact hbody
    · simpa using hbody
  | string value =>
    dsimp only
    exact Quoted.newline_not_mem_encode value
  | closed hc => exact hsymbol _ (TokenKind.mem_operators_of_isClosed hc)
  | operator hk => exact hsymbol _ hk

/-- A piece with its lines indented; tokens stay as they are. -/
def indentPiece (p : Piece) : Piece := if p.isSolid then p else ⟨p.kind, p.text.flatMap indentChar⟩

theorem indentPiece_of_isSolid {p : Piece} (hp : p.isSolid = true) : indentPiece p = p :=
  if_pos hp

theorem isSolid_indentPiece (p : Piece) : (indentPiece p).isSolid = p.isSolid := by
  unfold indentPiece
  split <;> rfl

theorem solid_map_indentPiece (ps : List Piece) : solid (ps.map indentPiece) = solid ps := by
  induction ps with
  | nil => rfl
  | cons p ps ih =>
    rw [solid, solid] at ih
    rw [List.map_cons, solid, solid, List.filter_cons, List.filter_cons, isSolid_indentPiece, ih]
    split
    · rw [indentPiece_of_isSolid ‹_›]
    · rfl

theorem head?_flatMap_indentChar (cs : List Char) : (cs.flatMap indentChar).head? = cs.head? := by
  cases cs with
  | nil => rfl
  | cons c cs =>
    rw [List.flatMap_cons, indentChar]
    split <;> simp_all

theorem Fits.indent {p : Piece} {next : Option Char} (h : p.Fits next) :
    (indentPiece p).Fits next ∧ (indentPiece p).text = p.text.flatMap indentChar := by
  by_cases hp : p.isSolid = true
  · rw [indentPiece_of_isSolid hp, flatMap_indentChar (h.newline_not_mem hp)]
    exact ⟨h, rfl⟩
  · refine ⟨?_, by rw [indentPiece, if_neg hp]⟩
    cases h with
    | @blank text hne hblank =>
      have hhead := head?_flatMap_indentChar text
      refine .blank (fun hnil => ?_) fun c hc => ?_
      · rw [hnil, eq_comm] at hhead
        exact hne (List.head?_eq_none_iff.1 hhead)
      · obtain ⟨b, hb, hc⟩ := List.mem_flatMap.1 hc
        have hwhite : ∀ d ∈ ['\n', '\t'], isBlank d = true := by simp [isBlank]
        unfold indentChar at hc
        split at hc
        · exact hwhite c hc
        · rw [List.mem_singleton.1 hc]
          exact hblank b hb
    | _ => exact absurd rfl hp

/-- Indentation changes blanks only. -/
theorem Written.indent {ps : List Piece} {next : Option Char} (h : Written ps next) :
    texts (ps.map indentPiece) = (texts ps).flatMap indentChar ∧
      Written (ps.map indentPiece) next := by
  induction ps with
  | nil => exact ⟨rfl, trivial⟩
  | cons p ps ih =>
    obtain ⟨htexts, hwritten⟩ := ih h.2
    obtain ⟨hfits, htext⟩ := h.1.indent
    refine ⟨?_, ?_, hwritten⟩
    · rw [List.map_cons, texts_cons, texts_cons, List.flatMap_append, htexts, htext]
    · rw [htexts, head?_flatMap_indentChar]
      exact hfits

theorem Lays.indent {next : Option Char} {ws : List Piece} {text : String}
    (h : Lays (some '\n') ws text.toList) : Lays next ws (SearchScript.indent text).toList := by
  obtain ⟨ps, htext, rfl, hps⟩ := h
  obtain ⟨htexts, hwritten⟩ := hps.indent
  have htab : ∀ t : Option Char, (⟨.blank, ['\t']⟩ : Piece).Fits t :=
    fun _ => .blank (by simp) (by simp [isBlank])
  have hline : ∀ t : Option Char, (⟨.blank, ['\n']⟩ : Piece).Fits t :=
    fun _ => .blank (by simp) (by simp [isBlank])
  refine ⟨⟨.blank, ['\t']⟩ :: (ps.map indentPiece ++ [⟨.blank, ['\n']⟩]), ?_, ?_, htab _, ?_⟩
  · rw [texts_cons, texts_append, htexts, htext, SearchScript.indent, String.toList_ofList]
    rfl
  · change solid (ps.map indentPiece ++ [⟨.blank, ['\n']⟩]) = solid ps
    rw [solid_append, solid_map_indentPiece]
    exact List.append_nil _
  · exact written_append.2 ⟨hwritten, hline _, trivial⟩

end Piece

open Piece

/-! ## Numbers -/

namespace Expr

/-- Whether an expression is a number. -/
def isNumber : Expr → Bool
  | number _ _ => true
  | _ => false

/-- Whether an expression is a number without a minus. -/
def isUnsigned : Expr → Bool
  | number _ n => !n.isNegative
  | _ => false

/-- Whether an expression is written with a number without a minus at its start. -/
def startsWithDigit : Expr → Bool
  | binary _ op left _ => op.isSuffix && left.startsWithDigit
  | e => e.isUnsigned

end Expr

namespace Code

/-- Whether the numbers in a node and in its direct parts are written as they are read: none is a
negative zero, which is written without its sign, or has a signed exponent, and none that has no
sign stands behind a minus or beside a point. -/
def keepsNumbers : Code → Bool
  | .expression (.number _ n) => n.isScannable && n != .signedZero true
  | .expression (.unary _ .negate operand) => !operand.startsWithDigit
  | .expression (.binary _ .member left right) => !left.isUnsigned && !right.isUnsigned
  | _ => true

/-- Whether nodes are shaped and keep their numbers. -/
def Printable (nodes : List Code) : Prop :=
  ∀ node ∈ nodes, node.isShaped = true ∧ node.keepsNumbers = true

@[simp] theorem printable_nil : Printable [] := List.forall_mem_nil _

@[simp] theorem printable_append {as bs : List Code} :
    Printable (as ++ bs) ↔ Printable as ∧ Printable bs :=
  List.forall_mem_append

@[simp] theorem printable_cons {node : Code} {nodes : List Code} :
    Printable (node :: nodes) ↔
      (node.isShaped = true ∧ node.keepsNumbers = true) ∧ Printable nodes :=
  List.forall_mem_cons

end Code

open Code (Printable)

/-! ## Expressions -/

variable {next : Option Char}

attribute [local simp] Expr.source Expr.words Statement.bareSource Statement.bareWords

@[simp] theorem toList_parenthesize (b : Bool) (text : String) :
    (parenthesize b text).toList = if b then '(' :: (text.toList ++ [')']) else text.toList := by
  cases b <;> simp [parenthesize]

namespace Expr

theorem source_eq_cons_of_isWord {e : Expr} {text : String} (h : e.source = text)
    (hw : isWord text = true) :
    ∃ c cs, e.source.toList = c :: cs ∧ opensOperand c = true ∧
      (c.isDigit = true → e.startsWithDigit = true) := by
  obtain ⟨c, cs, htext, hc, hd⟩ := exists_cons_of_isWord hw
  exact ⟨c, cs, by rw [h, htext], hc, fun h => absurd h (by simp [hd])⟩

/-- The text of a binary expression starts with its left operand. -/
theorem source_binary (span : Span) (op : BinaryOp) (left right : Expr) :
    ∃ tail, (Expr.binary span op left right).source.toList =
      (parenthesize (left.needsParens op.depth) left.source).toList ++ tail := by
  cases op <;>
    exact ⟨_, by simp only [source, String.toList_append, List.append_assoc]; rfl⟩

/-- An operand of a suffix or a prefix operator starts with what opens operands. -/
theorem source_eq_cons : ∀ {e : Expr}, Printable e.nodes → e.isOperand = true →
    e.needsParens 8 = false → ∃ c cs, e.source.toList = c :: cs ∧ opensOperand c = true ∧
      (c.isDigit = true → e.startsWithDigit = true)
  | .placeholder _, hs, _, _ => absurd (hs _ List.mem_cons_self).1 (by simp [Code.isShaped])
  | .name _ text, hs, _, _ =>
    source_eq_cons_of_isWord rfl (isWord_of_isIdentifier (hs _ List.mem_cons_self).1)
  | .typeName _ type, _, _, _ => 
    source_eq_cons_of_isWord rfl (show isWord type.spelling = true by cases type <;> decide)
  | .number _ n, hs, _, hp => by
    have hscan := (hs _ List.mem_cons_self).2
    simp only [Code.keepsNumbers, Bool.and_eq_true] at hscan
    -- a negative number would stand in parentheses
    have hsign : n.isNegative = false := by
      cases h : n.isNegative with
      | false => rfl
      | true => simp [needsParens, precedence, h] at hp
    obtain ⟨body, htext, ⟨⟨d, ds, rfl, hd, -⟩, -⟩ | ⟨-, h⟩⟩ := n.literal_eq
    · refine ⟨d, ds, by simpa [source, hsign] using htext, by simp [opensOperand, hd], fun _ => ?_⟩
      simp [startsWithDigit, isUnsigned, hsign]
    · rw [hscan.1] at h
      cases h
  | .boolean _ value, _, _, _ => 
    source_eq_cons_of_isWord rfl
      (show isWord (if value then "true" else "false") = true by cases value <;> decide)
  | .string _ value, _, _, _ =>
    ⟨'"', _, String.toList_ofList, by decide, fun h => absurd h (by decide)⟩
  | .null span, _, ho, _ => by
    simp only [isOperand, isNoArguments, Bool.not_eq_eq_eq_not, Bool.not_true] at ho
    exact source_eq_cons_of_isWord (by simp [source, ho]) (show isWord "null" = true by decide)
  | .unary _ _ _, _, _, hp => by simp [needsParens, precedence] at hp
  | .binary span op left right, hs, _, hp => by
    -- an operator that binds less tightly would too
    have hsuffix : op.isSuffix = true := by
      cases hop : op.isSuffix with
      | true => rfl
      | false =>
        have := BinaryOp.depth_le hop
        exact absurd (show op.depth < 8 by omega) (of_decide_eq_false hp)
    obtain ⟨tail, htail⟩ := source_binary span op left right
    rw [htail, BinaryOp.depth_of_isSuffix hsuffix, toList_parenthesize]
    split
    · exact ⟨'(', _, rfl, by decide, fun h => absurd h (by decide)⟩
    · next hleft =>
      simp only [nodes, Code.printable_cons, Code.printable_append, Code.isShaped,
        Bool.and_eq_true] at hs
      obtain ⟨c, cs, htext, hc, hd⟩ :=
        source_eq_cons hs.2.1 hs.1.1.1 (Bool.eq_false_iff.2 hleft)
      exact ⟨c, cs ++ tail, by rw [htext]; rfl, hc, fun h => by simp [startsWithDigit, hsuffix, hd h]⟩
  | .ternary _ _ _ _, _, _, hp => by simp [needsParens, precedence] at hp
  | .lambda _ _ _, _, _, hp => by simp [needsParens, precedence] at hp
  | .function _ _ _, _, _, hp => by simp [needsParens, precedence] at hp

/-- An operand in its place starts with what opens operands. -/
theorem placed_eq_cons {e : Expr} {b : Bool} (hs : Printable e.nodes) (ho : e.isOperand = true)
    (hb : b = false → e.needsParens 8 = false) :
    ∃ c cs, (parenthesize b e.source).toList = c :: cs ∧ opensOperand c = true ∧
      (c.isDigit = true → b = false ∧ e.startsWithDigit = true) := by
  rw [toList_parenthesize]
  cases b with
  | true => exact ⟨'(', _, rfl, by decide, fun h => absurd h (by decide)⟩
  | false =>
    obtain ⟨c, cs, htext, hc, hd⟩ := source_eq_cons hs ho (hb rfl)
    exact ⟨c, cs, htext, hc, fun h => ⟨rfl, hd h⟩⟩

/-- Whether a character ends an expression in front of it. A point ends what stands without
parentheses in front of it, numbers apart. -/
def EndsAt (e : Expr) (next : Option Char) : Prop :=
  next.all isBreak = true ∨ next = some '.' ∧ e.needsParens 8 = false ∧ e.isUnsigned = false

/-- Whether the text of an expression is laid out as its words. -/
def LaysOut (e : Expr) : Prop := ∀ next, e.EndsAt next → Lays next e.words e.source.toList

variable {e left right condition whenTrue whenFalse : Expr} {span : Span} {op : BinaryOp}

/-- Parentheses lay out any operand. -/
theorem LaysOut.placed (h : e.LaysOut) {b : Bool} (hn : b = false → e.EndsAt next) :
    Lays next (inParens b e.words) (parenthesize b e.source).toList := by
  rw [toList_parenthesize]
  cases b with
  | false => exact h next (hn rfl)
  | true =>
    have hclose : Lays next [symbol .rightParen] [')'] := Lays.nil.closed _ _ rfl rfl
    exact (hclose.prepend (h _ (.inl rfl))).closed .leftParen '(' rfl rfl

theorem EndsAt.not_continuesWord (hn : e.EndsAt next) : next.all (!continuesWord ·) = true := by
  rcases hn with hn | ⟨rfl, -⟩
  · exact not_continuesWord_of_isBreak hn
  · rfl

theorem laysOut_word {text : String} (hwords : e.words = [word text]) (hsource : e.source = text)
    (hw : isWord text = true) : e.LaysOut := by
  intro next hn
  rw [hwords, hsource, ← List.append_nil text.toList]
  exact Lays.nil.word hw hn.not_continuesWord

theorem laysOut_number {n : Number} (h : n.isScannable = true) : (number span n).LaysOut := by
  intro next hn
  have hn : next.all (!continuesNumber ·) = true := by
    rcases hn with hn | ⟨-, hp, hu⟩
    · cases next with
      | none => rfl
      | some c => simpa using continuesNumber_of_isBreak hn
    · simp_all [needsParens, precedence, isUnsigned]
  obtain ⟨body, htext, ⟨hbody, -⟩ | ⟨-, hfalse⟩⟩ := n.literal_eq
  · have hfits : (literal .number n.literal).Fits next := by
      refine .number hbody ?_ hn
      rw [htext]
      split
      · exact .inr rfl
      · exact .inl rfl
    exact .single hfits rfl
  · rw [h] at hfalse
    cases hfalse

theorem laysOut_string (span : Span) (value : String) : (string span value).LaysOut :=
  fun _ _ => .single (.string value) rfl

theorem needsParens_of_le {least more : Nat} (h : e.needsParens more = false)
    (hle : least ≤ more) : e.needsParens least = false :=
  decide_eq_false (Nat.not_lt.2 (Nat.le_trans hle (Nat.not_lt.1 (of_decide_eq_false h))))

theorem laysOut_unary {op : UnaryOp} (h : e.LaysOut)
    (hs : Printable (unary span op e).nodes) : (unary span op e).LaysOut := by
  intro next hn
  have hn : next.all isBreak = true := hn.resolve_right fun hn => by cases hn.2.1
  have hlays : Lays next (inParens (e.needsParens 8) e.words)
      (parenthesize (e.needsParens 8) e.source).toList := h.placed fun _ => .inl hn
  simp only [nodes, Code.printable_cons, Code.isShaped] at hs
  obtain ⟨⟨ho, hkeeps⟩, hs⟩ := hs
  obtain ⟨c, cs, htext, hc, hd⟩ := placed_eq_cons hs ho (b := e.needsParens 8) id
  rw [source, words, String.toList_append, ← op.describe_token]
  refine hlays.operator (by cases op <;> decide) ?_ ?_
  · rw [htext]
    exact hc
  · intro hop
    cases op <;> rcases hop with hop | hop <;> cases hop
    simp only [Code.keepsNumbers, Bool.not_eq_eq_eq_not, Bool.not_true] at hkeeps
    rw [htext]
    simpa using mt (fun h => (hd h).2) (Bool.eq_false_iff.1 hkeeps)

theorem laysOut_member (hl : left.LaysOut) (hr : right.LaysOut)
    (hs : Printable (binary span .member left right).nodes) :
    (binary span .member left right).LaysOut := by
  intro next hn
  simp only [nodes, Code.printable_cons, Code.printable_append, Code.isShaped, Code.keepsNumbers,
    Bool.and_eq_true, Bool.not_eq_eq_eq_not, Bool.not_true] at hs
  obtain ⟨⟨⟨-, ho⟩, hul, hur⟩, -, hsr⟩ := hs
  -- only an atom stands on the right without parentheses
  have hatom : right.needsParens 9 = false → right.startsWithDigit = right.isUnsigned := by
    intro hp
    have hprec : 9 ≤ right.precedence := Nat.not_lt.1 (of_decide_eq_false hp)
    cases right with
    | binary _ op _ _ =>
      have : op.depth ≤ 8 := by cases op <;> decide
      exact absurd hprec (Nat.not_le.2 (Nat.lt_succ_of_le this))
    | _ => rfl
  have hright : Lays next (inParens (right.needsParens 9) right.words)
      (parenthesize (right.needsParens 9) right.source).toList :=
    hr.placed fun hp => hn.imp_right fun hn => ⟨hn.1, needsParens_of_le hp (by decide), hur⟩
  obtain ⟨c, cs, htext, hc, hd⟩ := placed_eq_cons hsr (by simpa using ho)
    fun hp : right.needsParens 9 = false => needsParens_of_le hp (by decide)
  have hperiod : Lays next (symbol .period :: inParens (right.needsParens 9) right.words)
      ('.' :: (parenthesize (right.needsParens 9) right.source).toList) := by
    refine hright.operator (by decide) ?_ fun _ => ?_
    · rw [htext]
      exact hc
    · rw [htext]
      -- a digit behind the point would make a number of it
      have hdigit : ¬c.isDigit = true := fun h => by
        rw [hatom (hd h).1, hur] at hd
        cases (hd h).2
      simpa using hdigit
  have hlays := hperiod.prepend (hl.placed (b := left.needsParens 8) fun hp => .inr ⟨rfl, hp, hul⟩)
  simpa [BinaryOp.depth, BinaryOp.token] using hlays

theorem laysOut_call (hl : left.LaysOut) (hr : right.LaysOut) :
    (binary span .call left right).LaysOut := by
  intro next hn
  have hclose : Lays next [symbol .rightParen] [')'] := Lays.nil.closed _ _ rfl rfl
  have hopen : Lays next (symbol .leftParen :: (right.words ++ [symbol .rightParen]))
      ('(' :: (right.source.toList ++ [')'])) := (hclose.prepend (hr _ (.inl rfl))).closed _ _ rfl rfl
  have hlays := hopen.prepend (hl.placed (b := left.needsParens 8) fun _ => .inl rfl)
  simpa [BinaryOp.depth, BinaryOp.token] using hlays

theorem laysOut_subscript (hl : left.LaysOut) (hr : right.LaysOut) :
    (binary span .subscript left right).LaysOut := by
  intro next hn
  have hclose : Lays next [symbol .rightBracket] [']'] := Lays.nil.closed _ _ rfl rfl
  have hopen : Lays next (symbol .leftBracket :: (right.words ++ [symbol .rightBracket]))
      ('[' :: (right.source.toList ++ [']'])) := (hclose.prepend (hr _ (.inl rfl))).closed _ _ rfl rfl
  have hlays := hopen.prepend (hl.placed (b := left.needsParens 8) fun _ => .inl rfl)
  simpa [BinaryOp.depth, BinaryOp.token] using hlays

theorem laysOut_infix (hop : op.isSuffix = false) (hl : left.LaysOut) (hr : right.LaysOut) :
    (binary span op left right).LaysOut := by
  intro next hn
  have hn : next.all isBreak = true := hn.resolve_right fun hn =>
    absurd (of_decide_eq_false hn.2.1) (not_not.2 (Nat.lt_succ_of_le (BinaryOp.depth_le hop)))
  have hright : Lays next (inParens (right.needsParensRight op.depth) right.words)
      (parenthesize (right.needsParensRight op.depth) right.source).toList :=
    hr.placed fun _ => .inl hn
  have hwords : (binary span op left right).words = inParens (left.needsParens op.depth) left.words ++
      symbol op.token :: inParens (right.needsParensRight op.depth) right.words := by
    cases op <;> first | rfl | cases hop
  by_cases hgroup : op = .group
  · subst hgroup
    have hcomma : Lays next (symbol .comma :: inParens (right.needsParensRight 2) right.words)
        (',' :: ' ' :: (parenthesize (right.needsParensRight 2) right.source).toList) :=
      hright.blank.closed _ _ rfl rfl
    have hlays := hcomma.prepend (hl.placed (b := left.needsParens 2) fun _ => .inl rfl)
    simpa [BinaryOp.depth, BinaryOp.token] using hlays
  · have hmem : op.token ∈ TokenKind.operators := by cases op <;> decide
    have hlays := (hright.spaced op.token op.spelling hmem (BinaryOp.describe_token hop)).prepend
      (hl.placed (b := left.needsParens op.depth) fun _ => .inl rfl)
    have hsource : (binary span op left right).source =
        parenthesize (left.needsParens op.depth) left.source ++ " " ++ op.spelling ++ " " ++
          parenthesize (right.needsParensRight op.depth) right.source := by
      cases op <;> first | rfl | exact absurd rfl hgroup | cases hop
    rw [hwords, hsource]
    simpa using hlays

theorem laysOut_ternary (hc : condition.LaysOut) (ht : whenTrue.LaysOut) (hf : whenFalse.LaysOut) :
    (ternary span condition whenTrue whenFalse).LaysOut := by
  intro next hn
  have hn : next.all isBreak = true := hn.resolve_right fun hn => by cases hn.2.1
  have hfalse : Lays next (inParens (whenFalse.needsParensRight 3) whenFalse.words)
      (parenthesize (whenFalse.needsParensRight 3) whenFalse.source).toList :=
    hf.placed fun _ => .inl hn
  have hcolon := hfalse.spaced .colon ":" (by decide) rfl
  have htrue := hcolon.prepend (ht.placed (b := whenTrue.needsParensRight 3) fun _ => .inl rfl)
  have hquestion := htrue.spaced .question "?" (by decide) rfl
  have hlays := hquestion.prepend (hc.placed (b := condition.needsParens 3) fun _ => .inl rfl)
  simpa using hlays

/-- Parameters are laid out in front of what ends a word. -/
theorem lays_params {names : List String} (hids : names.all isIdentifier = true)
    (hn : next.all (!continuesWord ·) = true) :
    Lays next (params names) (", ".intercalate names).toList := by
  induction names with
  | nil => exact .nil
  | cons name names ih =>
    obtain ⟨hid, hids⟩ := Bool.and_eq_true_iff.1 hids
    have hword := isWord_of_isIdentifier hid
    cases names with
    | nil =>
      rw [String.intercalate_singleton, ← List.append_nil name.toList]
      exact Lays.nil.word hword hn
    | cons other names =>
      have hlays : Lays next (symbol .comma :: params (other :: names))
          (',' :: ' ' :: (", ".intercalate (other :: names)).toList) := (ih hids).blank.closed _ _ rfl rfl
      have hlays := hlays.word hword rfl
      simpa [String.intercalate_cons_cons, params] using hlays

theorem laysOut_lambda {names : List String} (h : e.LaysOut)
    (hids : names.all isIdentifier = true) : (lambda span names e).LaysOut := by
  intro next hn
  have hn : next.all isBreak = true := hn.resolve_right fun hn => by cases hn.2.1
  have hbody : Lays next (symbol .colon :: e.words) (':' :: ' ' :: e.source.toList) :=
    (h next (.inl hn)).blank.closed _ _ rfl rfl
  have hparams := hbody.prepend (lays_params hids rfl)
  have hlays := hparams.blank.keyword .lambdaWord "lambda" rfl (by decide) rfl
  simpa using hlays

theorem laysOut_function {names : List String} {body : Statement}
    (h : ∀ next : Option Char, next.all isBreak = true →
      Lays next body.words body.source.toList)
    (hids : names.all isIdentifier = true) : (function span names body).LaysOut := by
  intro next hn
  have hn : next.all isBreak = true := hn.resolve_right fun hn => by cases hn.2.1
  have hclose : Lays next (symbol .rightParen :: body.words) (')' :: ' ' :: body.source.toList) :=
    (h next hn).blank.closed _ _ rfl rfl
  have hparams := hclose.prepend (lays_params hids rfl)
  have hopen : Lays next
      (symbol .leftParen :: (params names ++ symbol .rightParen :: body.words))
      ('(' :: ((", ".intercalate names).toList ++ ')' :: ' ' :: body.source.toList)) :=
    hparams.closed _ _ rfl rfl
  have hlays := hopen.keyword .functionWord "function" rfl (by decide) rfl
  simpa [Statement.source, Statement.words] using hlays

end Expr

/-! ## Statements -/

namespace Statement

/-- Whether the text of a statement is laid out as its words. -/
def LaysOut (s : Statement) : Prop :=
  ∀ next : Option Char, next.all isBreak = true → Lays next s.bareWords s.bareSource.toList

variable {s body whenTrue : Statement} {ss : List Statement} {e target value condition : Expr}
  {span : Span} {name : String}

theorem LaysOut.terminated (h : s.LaysOut) (hn : next.all isBreak = true) :
    Lays next s.words s.source.toList := by
  unfold words terminateWords source terminate
  split
  · have hsemicolon : Lays next [symbol .semicolon] [';'] := Lays.nil.closed _ _ rfl rfl
    rw [String.toList_append]
    exact hsemicolon.prepend (h _ rfl)
  · exact h next hn

theorem laysOut_assign {op : AssignOp} (ht : target.LaysOut) (hv : value.LaysOut) :
    (assign span op target value).LaysOut := by
  intro next hn
  have hmem : op.token ∈ TokenKind.operators := by cases op <;> decide
  have hlays := ((hv next (.inl hn)).spaced op.token op.spelling hmem op.describe_token).prepend
    (ht _ (.inl rfl))
  simpa using hlays

theorem laysOut_declare (hid : isIdentifier name = true) : (declare span name none).LaysOut := by
  intro next hn
  have hname := Lays.word .nil (isWord_of_isIdentifier hid) (not_continuesWord_of_isBreak hn)
  have hlays := hname.blank.keyword .letWord "let" rfl (by decide) rfl
  simpa using hlays

theorem laysOut_declare_value (hid : isIdentifier name = true) (hv : value.LaysOut) :
    (declare span name (some value)).LaysOut := by
  intro next hn
  have hvalue := (hv next (.inl hn)).spaced .assign "=" (by decide) rfl
  have hname := hvalue.word (isWord_of_isIdentifier hid) rfl
  have hlays := hname.blank.keyword .letWord "let" rfl (by decide) rfl
  simpa using hlays

theorem laysOut_keyword (kind : TokenKind) (hk : isKeyword kind = true)
    (hwords : s.bareWords = [symbol kind]) (hsource : s.bareSource = kind.describe) :
    s.LaysOut := by
  intro next hn
  have hlays := Lays.nil.keyword kind kind.describe (not_continuesWord_of_isBreak hn) hk rfl
  rwa [List.append_nil, ← hwords, ← hsource] at hlays

theorem laysOut_leave (h : e.LaysOut) : (leave span (some e)).LaysOut := by
  intro next hn
  have hlays := (h next (.inl hn)).blank.keyword .returnWord "return" rfl (by decide) rfl
  simpa using hlays

theorem lays_list (h : ∀ s ∈ ss, s.LaysOut) :
    Lays next (listWords ss) (indentedSource ss).toList := by
  induction ss with
  | nil => exact .nil
  | cons s ss ih =>
    obtain ⟨hs, hss⟩ := List.forall_mem_cons.1 h
    have hlays := (ih hss).prepend (hs.terminated (show (some '\n').all isBreak = true from rfl)).indent
    rw [listWords, indentedSource, String.toList_append]
    exact hlays

theorem laysOut_block (h : ∀ s ∈ ss, s.LaysOut) : (block span ss).LaysOut := by
  intro next _
  have hclose : Lays next [symbol .rightBrace] ['\x7d'] := Lays.nil.closed _ _ rfl rfl
  cases ss with
  | nil =>
    rw [bareSource, bareWords, listWords]
    exact hclose.closed .leftBrace '\x7b' rfl rfl
  | cons s ss =>
    have hlays := (hclose.prepend (lays_list h)).newline.closed .leftBrace '\x7b' rfl rfl
    simpa using hlays

/-- A keyword with something in parentheses behind it. -/
theorem lays_header {ws vs : List Piece} {cs ds : List Char} (kind : TokenKind) (text : String)
    (h : Lays (some ')') ws cs) (h' : Lays next vs ds) (hk : isKeyword kind = true)
    (htext : kind.describe = text) :
    Lays next (symbol kind :: symbol .leftParen :: (ws ++ symbol .rightParen :: vs))
      (text.toList ++ ' ' :: '(' :: (cs ++ ')' :: ' ' :: ds)) := by
  have hclose : Lays next (symbol .rightParen :: vs) (')' :: ' ' :: ds) := h'.blank.closed _ _ rfl rfl
  have hopen : Lays next (symbol .leftParen :: (ws ++ symbol .rightParen :: vs))
    ('(' :: (cs ++ ')' :: ' ' :: ds)) := (hclose.prepend h).closed _ _ rfl rfl
  exact hopen.blank.keyword kind text rfl hk htext

theorem laysOut_branch (hc : condition.LaysOut) (ht : whenTrue.LaysOut) :
    (branch span condition whenTrue none).LaysOut := by
  intro next hn
  have hlays := lays_header .ifWord "if" (hc _ (.inl rfl)) (ht.terminated hn) (by decide) rfl
  simpa [source, words] using hlays

theorem laysOut_branch_else {whenFalse : Statement} (hc : condition.LaysOut)
    (ht : whenTrue.LaysOut) (hf : whenFalse.LaysOut) :
    (branch span condition whenTrue (some whenFalse)).LaysOut := by
  intro next hn
  have helse := ((hf.terminated hn).blank.keyword .elseWord "else" rfl (by decide) rfl).blank
  have hbody := helse.prepend (ht.terminated (show (some ' ').all isBreak = true from rfl))
  have hlays := lays_header .ifWord "if" (hc _ (.inl rfl)) hbody (by decide) rfl
  simpa [source, words] using hlays

theorem laysOut_forLoop {initializer iterator : Option Statement} {condition : Option Expr}
    (hi : ∀ s ∈ initializer, s.LaysOut) (hc : ∀ e ∈ condition, e.LaysOut)
    (hs : ∀ s ∈ iterator, s.LaysOut) (hb : body.LaysOut) :
    (forLoop span initializer condition iterator body).LaysOut := by
  intro next hn
  have hheader : ∀ {o : Option Statement} (next : Option Char), (∀ s ∈ o, s.LaysOut) →
      next.all isBreak = true → Lays next (headerWords o) (headerSource o).toList := by
    intro o next h hn
    cases o with
    | none => exact .nil
    | some s => exact h s rfl next hn
  have hcondition : Lays (some ';') (Expr.optionWords condition)
      (Expr.optionSource condition).toList := by
    cases condition with
    | none => exact .nil
    | some e => exact hc e rfl _ (.inl rfl)
  have hstep := ((hheader (some ')') hs rfl).blank.closed .semicolon ';' rfl rfl).prepend hcondition
  have hparts := (hstep.blank.closed .semicolon ';' rfl rfl).prepend (hheader (some ';') hi rfl)
  have hlays := lays_header .forWord "for" hparts (hb.terminated hn) (by decide) rfl
  simpa [source, words] using hlays

theorem laysOut_whileLoop (hc : condition.LaysOut) (hb : body.LaysOut) :
    (whileLoop span condition body).LaysOut := by
  intro next hn
  have hlays := lays_header .whileWord "while" (hc _ (.inl rfl)) (hb.terminated hn) (by decide) rfl
  simpa [source, words] using hlays

end Statement

/-! ## Trees -/

theorem Expr.laysOut_null (span : Span) : (Expr.null span).LaysOut := by
  intro next hn
  by_cases h : span.isEmpty = true
  · simpa [h] using Lays.nil
  · exact laysOut_word (by simp [h]) (by simp [h]) (show isWord "null" = true by decide) next hn

theorem Expr.laysOut_binary {span : Span} {op : BinaryOp} {left right : Expr} (hl : left.LaysOut)
    (hr : right.LaysOut) (hs : Printable (Expr.binary span op left right).nodes) :
    (Expr.binary span op left right).LaysOut := by
  cases hop : op.isSuffix with
  | false => exact laysOut_infix hop hl hr
  | true =>
    cases op with
    | member => exact laysOut_member hl hr hs
    | call => exact laysOut_call hl hr
    | subscript => exact laysOut_subscript hl hr
    | _ => cases hop

mutual

/-- The text of a printable expression is laid out as its words. -/
theorem Expr.laysOut : ∀ {e : Expr}, Printable e.nodes → e.LaysOut
  | .placeholder _, hs => absurd (hs _ List.mem_cons_self).1 (by simp [Code.isShaped])
  | .name _ _, hs =>
    Expr.laysOut_word rfl rfl (isWord_of_isIdentifier (hs _ List.mem_cons_self).1)
  | .typeName _ type, _ =>
    Expr.laysOut_word rfl rfl (show isWord type.spelling = true by cases type <;> decide)
  | .number _ _, hs => Expr.laysOut_number (Bool.and_eq_true_iff.1 (hs _ List.mem_cons_self).2).1
  | .boolean _ value, _ =>
    Expr.laysOut_word rfl rfl
      (show isWord (if value then "true" else "false") = true by cases value <;> decide)
  | .string span value, _ => Expr.laysOut_string span value
  | .null span, _ => Expr.laysOut_null span
  | .unary _ _ operand, hs => by
    have h := (Code.printable_cons.1 hs).2
    exact Expr.laysOut_unary (Expr.laysOut h) hs
  | .binary _ _ left right, hs => by
    have h := Code.printable_append.1 (Code.printable_cons.1 hs).2
    exact Expr.laysOut_binary (Expr.laysOut h.1) (Expr.laysOut h.2) hs
  | .ternary _ condition whenTrue whenFalse, hs => by
    have h := Code.printable_append.1 (Code.printable_cons.1 hs).2
    have h' := Code.printable_append.1 h.2
    exact Expr.laysOut_ternary (Expr.laysOut h.1) (Expr.laysOut h'.1) (Expr.laysOut h'.2)
  | .lambda _ _ body, hs => by
    obtain ⟨⟨hshape, -⟩, h⟩ := Code.printable_cons.1 hs
    simp only [Code.isShaped, Bool.and_eq_true] at hshape
    exact Expr.laysOut_lambda (Expr.laysOut h) hshape.1.2
  | .function _ _ body, hs => by
    obtain ⟨⟨hshape, -⟩, h⟩ := Code.printable_cons.1 hs
    exact Expr.laysOut_function (fun _ hn => (Statement.laysOut h).terminated hn)
      (Bool.and_eq_true_iff.1 hshape).1
termination_by structural e => e

/-- The text of a printable statement is laid out as its words. -/
theorem Statement.laysOut : ∀ {s : Statement}, Printable s.nodes → s.LaysOut
  | .expression _ value, hs => by
    have h := Expr.laysOut (Code.printable_cons.1 hs).2
    exact fun next hn => h next (.inl hn)
  | .assign _ _ target value, hs => by
    have h := Code.printable_append.1 (Code.printable_cons.1 hs).2
    exact Statement.laysOut_assign (Expr.laysOut h.1) (Expr.laysOut h.2)
  | .declare _ _ none, hs => by
    have hshape := (hs _ List.mem_cons_self).1
    exact Statement.laysOut_declare (Bool.and_eq_true_iff.1 hshape).1
  | .declare _ _ (some value), hs => by
    obtain ⟨⟨hshape, -⟩, h⟩ := Code.printable_cons.1 hs
    exact Statement.laysOut_declare_value (Bool.and_eq_true_iff.1 hshape).1 (Expr.laysOut h)
  | .leave _ none, _ => Statement.laysOut_keyword .returnWord (by decide) rfl rfl
  | .leave _ (some value), hs => Statement.laysOut_leave (Expr.laysOut (Code.printable_cons.1 hs).2)
  | .breakLoop _, _ => Statement.laysOut_keyword .breakWord (by decide) rfl rfl
  | .continueLoop _, _ => Statement.laysOut_keyword .continueWord (by decide) rfl rfl
  | .empty _, _ => fun _ _ => .nil
  | .block _ body, hs => Statement.laysOut_block (Statement.laysOut_list (Code.printable_cons.1 hs).2)
  | .branch _ condition whenTrue none, hs => by
    have h := Code.printable_append.1 (Code.printable_cons.1 hs).2
    have h' := Code.printable_append.1 h.2
    exact Statement.laysOut_branch (Expr.laysOut h.1) (Statement.laysOut h'.1)
  | .branch _ condition whenTrue (some whenFalse), hs => by
    have h := Code.printable_append.1 (Code.printable_cons.1 hs).2
    have h' := Code.printable_append.1 h.2
    exact Statement.laysOut_branch_else (Expr.laysOut h.1) (Statement.laysOut h'.1) (Statement.laysOut h'.2)
  | .forLoop _ initializer condition iterator body, hs => by
    have h := Code.printable_append.1 (Code.printable_cons.1 hs).2
    have h' := Code.printable_append.1 h.2
    have h'' := Code.printable_append.1 h'.2
    exact Statement.laysOut_forLoop (Statement.laysOut_option h.1) (Expr.laysOut_option h'.1)
      (Statement.laysOut_option h''.1) (Statement.laysOut h''.2)
  | .whileLoop _ condition body, hs => by
    have h := Code.printable_append.1 (Code.printable_cons.1 hs).2
    exact Statement.laysOut_whileLoop (Expr.laysOut h.1) (Statement.laysOut h.2)
termination_by structural s => s

theorem Statement.laysOut_list : ∀ {ss : List Statement}, Printable (Statement.listNodes ss) →
    ∀ s ∈ ss, s.LaysOut
  | [], _ => by simp
  | _ :: _, hs => by
    have h := Code.printable_append.1 hs
    exact List.forall_mem_cons.2 ⟨Statement.laysOut h.1, Statement.laysOut_list h.2⟩
termination_by structural ss => ss

theorem Statement.laysOut_option : ∀ {o : Option Statement},
    Printable (Statement.optionNodes o) → ∀ s ∈ o, s.LaysOut
  | none, _ => by simp
  | some _, hs => fun _ h => Option.mem_some.1 h ▸ Statement.laysOut hs
termination_by structural o => o

theorem Expr.laysOut_option : ∀ {o : Option Expr}, Printable (Expr.optionNodes o) →
    ∀ e ∈ o, e.LaysOut
  | none, _ => by simp
  | some _, hs => fun _ h => Option.mem_some.1 h ▸ Expr.laysOut hs
termination_by structural o => o

end

end SearchScript
