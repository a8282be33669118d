import SearchScript.Proofs.Parse.Printed
import SearchScript.Proofs.Parse.Size
import SearchScript.Proofs.Syntax.Layout
import SearchScript.Run.Program

/-!
# Printing and reading

A printed tree reads back as the tree, spans apart. The text is scanned as the words of the tree,
and the rules read the words as the tree; the strict parser follows the rules. The loops of the
parser go round a limited number of times, so this is said of trees up to a size. It holds of every
tree of a strict shape that has no numbers in it, and of what was read from a text if its numbers
are written as they are read.

## Key results

- `Expr.isRead`, `Statement.isRead`: the words of a tree are read as the tree
- `Code.parse_source`: a printed tree reads back as the tree
-/

namespace SearchScript

open Piece

open Code (Printable size)

/-! ## Trees -/

/-- A number that is written as it is read is read back. -/
theorem Code.read_literal_of_keepsNumbers {span : Span} {n : Number}
    (h : (Code.expression (.number span n)).keepsNumbers = true) : Number.read n.literal = n := by
  obtain ⟨-, hzero⟩ := Bool.and_eq_true_iff.1 h
  rw [Number.read_literal, if_neg (bne_iff_ne.1 hzero)]

mutual

/-- The words of a printable expression are read as the expression. -/
theorem Expr.isRead : ∀ {e : Expr}, Printable e.nodes → e.isOperand = true →
    size e.nodes < loopLimit → e.IsRead
  | .placeholder _, hs, _, _ => absurd (hs _ List.mem_cons_self).1 (by simp [Code.isShaped])
  | .name _ _, hs, _, _ => Expr.isRead_name (hs _ List.mem_cons_self).1
  | .typeName span type, _, _, _ => Expr.isRead_typeName span type
  | .number _ _, hs, _, _ =>
    Expr.isRead_number (Code.read_literal_of_keepsNumbers (hs _ List.mem_cons_self).2)
  | .boolean span value, _, _, _ => Expr.isRead_boolean span value
  | .string span value, _, _, _ => Expr.isRead_string span value
  | .null _, _, ho, _ => Expr.isRead_null ho
  | .unary _ _ operand, hs, _, hsize => by
    -- each part of a node is printable and smaller, so its loops stay within the limit
    obtain ⟨⟨ho, -⟩, h⟩ := Code.printable_cons.1 hs
    simp only [Expr.nodes, Code.size_cons] at hsize
    exact Expr.isRead_unary (Expr.isRead h ho (by omega))
  | .binary span op left right, hs, _, hsize => by
    -- the loop that reads the operators takes a turn for each one in the chain on the left
    have hturns := Nat.lt_trans (Expr.turns_lt_size (.binary span op left right)) hsize
    obtain ⟨⟨hshape, -⟩, h⟩ := Code.printable_cons.1 hs
    obtain ⟨hl, hr⟩ := Code.printable_append.1 h
    obtain ⟨hleft, hright⟩ := Bool.and_eq_true_iff.1 hshape
    simp only [Expr.nodes, Code.size_cons, Code.size_append] at hsize
    exact Expr.isRead_binary (Expr.isRead hl hleft (by omega))
      (fun ho => Expr.isRead hr ho (by omega)) hright hturns
  | .ternary span condition whenTrue whenFalse, hs, _, hsize => by
    have hturns :=
      Nat.lt_trans (Expr.turns_lt_size (.ternary span condition whenTrue whenFalse)) hsize
    obtain ⟨⟨hshape, -⟩, h⟩ := Code.printable_cons.1 hs
    obtain ⟨hc, h⟩ := Code.printable_append.1 h
    obtain ⟨ht, hf⟩ := Code.printable_append.1 h
    simp only [Code.isShaped, Bool.and_eq_true] at hshape
    simp only [Expr.nodes, Code.size_cons, Code.size_append] at hsize
    exact Expr.isRead_ternary (Expr.isRead hc hshape.1.1 (by omega))
      (Expr.isRead ht hshape.1.2 (by omega)) (Expr.isRead hf hshape.2 (by omega)) hturns
  | .lambda _ names body, hs, _, hsize => by
    obtain ⟨⟨hshape, -⟩, h⟩ := Code.printable_cons.1 hs
    simp only [Code.isShaped, Bool.and_eq_true, Bool.not_eq_eq_eq_not, Bool.not_true,
      List.isEmpty_eq_false_iff] at hshape
    simp only [Expr.nodes, Code.size_cons, Code.params] at hsize
    exact Expr.isRead_lambda (Expr.isRead h hshape.2 (by omega)) hshape.1.1 hshape.1.2 (by omega)
  | .function _ names body, hs, _, hsize => by
    obtain ⟨⟨hshape, -⟩, h⟩ := Code.printable_cons.1 hs
    obtain ⟨hids, hblock⟩ := Bool.and_eq_true_iff.1 hshape
    simp only [Expr.nodes, Code.size_cons, Code.params] at hsize
    exact Expr.isRead_function (fun ht => (Statement.isRead h (by omega)).block hblock ht) hids
      (by omega)
termination_by structural e => e

/-- The words of a printable statement are read as the statement. -/
theorem Statement.isRead : ∀ {s : Statement}, Printable s.nodes → size s.nodes < loopLimit →
    s.IsRead
  | .expression _ value, hs, hsize => by
    obtain ⟨⟨hshape, -⟩, h⟩ := Code.printable_cons.1 hs
    obtain ⟨hchain, hcall⟩ := Bool.and_eq_true_iff.1 hshape
    simp only [Statement.nodes, Code.size_cons] at hsize
    exact Statement.isRead_expression
      (Expr.isRead h (Expr.isOperand_of_isChain hchain) (by omega)) hchain hcall
  | .assign _ _ target value, hs, hsize => by
    obtain ⟨⟨hshape, -⟩, h⟩ := Code.printable_cons.1 hs
    obtain ⟨ht, hv⟩ := Code.printable_append.1 h
    simp only [Code.isShaped, Bool.and_eq_true, Bool.not_eq_eq_eq_not, Bool.not_true] at hshape
    obtain ⟨⟨hchain, hcall⟩, ho⟩ := hshape
    simp only [Statement.nodes, Code.size_cons, Code.size_append] at hsize
    exact Statement.isRead_assign (Expr.isRead ht (Expr.isOperand_of_isChain hchain) (by omega))
      (Expr.isRead hv ho (by omega)) hchain hcall
  | .declare _ _ none, hs, _ =>
    Statement.isRead_declare (Bool.and_eq_true_iff.1 (hs _ List.mem_cons_self).1).1
  | .declare _ _ (some value), hs, hsize => by
    obtain ⟨⟨hshape, -⟩, h⟩ := Code.printable_cons.1 hs
    obtain ⟨hid, ho⟩ := Bool.and_eq_true_iff.1 hshape
    simp only [Statement.nodes, Expr.optionNodes, Code.size_cons] at hsize
    exact Statement.isRead_declare_value hid (Expr.isRead h ho (by omega))
  | .leave _ none, _, _ => Statement.isRead_leave_none
  | .leave _ (some value), hs, hsize => by
    obtain ⟨⟨ho, -⟩, h⟩ := Code.printable_cons.1 hs
    simp only [Statement.nodes, Expr.optionNodes, Code.size_cons] at hsize
    exact Statement.isRead_leave (Expr.isRead h ho (by omega))
  | .breakLoop span, _, _ => Statement.isRead_breakLoop span
  | .continueLoop span, _, _ => Statement.isRead_continueLoop span
  | .empty span, _, _ => Statement.isRead_empty span
  | .block _ body, hs, hsize => by
    -- the loop that reads the statements takes a turn for each
    have hlength := Statement.length_le_size body
    have h := (Code.printable_cons.1 hs).2
    simp only [Statement.nodes, Code.size_cons] at hsize
    exact Statement.isRead_block (Statement.isRead_list h (by omega)) (by omega)
  | .branch _ condition whenTrue none, hs, hsize => by
    obtain ⟨⟨hshape, -⟩, h⟩ := Code.printable_cons.1 hs
    obtain ⟨hc, h⟩ := Code.printable_append.1 h
    have ht := (Code.printable_append.1 h).1
    simp only [Statement.nodes, Code.size_cons, Code.size_append] at hsize
    exact Statement.isRead_branch
      (Expr.isRead hc (Bool.and_eq_true_iff.1 hshape).1 (by omega)) (Statement.isRead ht (by omega))
  | .branch _ condition whenTrue (some whenFalse), hs, hsize => by
    obtain ⟨⟨hshape, -⟩, h⟩ := Code.printable_cons.1 hs
    obtain ⟨hc, h⟩ := Code.printable_append.1 h
    obtain ⟨ht, hf⟩ := Code.printable_append.1 h
    obtain ⟨ho, hopen⟩ := Bool.and_eq_true_iff.1 hshape
    simp only [Statement.nodes, Statement.optionNodes, Code.size_cons, Code.size_append] at hsize
    exact Statement.isRead_branch_else (Expr.isRead hc ho (by omega))
      (Statement.isRead ht (by omega)) (Statement.isRead hf (by omega)) (by simpa using hopen)
  | .forLoop _ initializer condition iterator body, hs, hsize => by
    obtain ⟨⟨hshape, -⟩, h⟩ := Code.printable_cons.1 hs
    obtain ⟨hi, h⟩ := Code.printable_append.1 h
    obtain ⟨hc, h⟩ := Code.printable_append.1 h
    obtain ⟨hi', hb⟩ := Code.printable_append.1 h
    simp only [Code.isShaped, Bool.and_eq_true] at hshape
    obtain ⟨⟨hsimple, ho⟩, hassign⟩ := hshape
    simp only [Statement.nodes, Code.size_cons, Code.size_append] at hsize
    exact Statement.isRead_forLoop (Statement.isRead_option hi (by omega))
      (Expr.isRead_option hc ho (by omega)) (Statement.isRead_option hi' (by omega))
      (Statement.isRead hb (by omega)) hsimple hassign
  | .whileLoop _ condition body, hs, hsize => by
    obtain ⟨⟨ho, -⟩, h⟩ := Code.printable_cons.1 hs
    obtain ⟨hc, hb⟩ := Code.printable_append.1 h
    simp only [Statement.nodes, Code.size_cons, Code.size_append] at hsize
    exact Statement.isRead_whileLoop (Expr.isRead hc ho (by omega))
      (Statement.isRead hb (by omega))
termination_by structural s => s

theorem Statement.isRead_list : ∀ {ss : List Statement}, Printable (Statement.listNodes ss) →
    size (Statement.listNodes ss) < loopLimit → ∀ s ∈ ss, s.IsRead
  | [], _, _ => by simp
  | _ :: _, hs, hsize => by
    obtain ⟨h, hrest⟩ := Code.printable_append.1 hs
    simp only [Statement.listNodes, Code.size_append] at hsize
    exact List.forall_mem_cons.2
      ⟨Statement.isRead h (by omega), Statement.isRead_list hrest (by omega)⟩
termination_by structural ss => ss

theorem Statement.isRead_option : ∀ {o : Option Statement},
    Printable (Statement.optionNodes o) → size (Statement.optionNodes o) < loopLimit →
    ∀ s ∈ o, s.IsRead
  | none, _, _ => by simp
  | some _, hs, hsize => fun _ h => Option.mem_some.1 h ▸ Statement.isRead hs hsize
termination_by structural o => o

theorem Expr.isRead_option : ∀ {o : Option Expr}, Printable (Expr.optionNodes o) →
    o.all Expr.isOperand = true → size (Expr.optionNodes o) < loopLimit → ∀ e ∈ o, e.IsRead
  | none, _, _, _ => by simp
  | some _, hs, ho, hsize => fun _ h => Option.mem_some.1 h ▸ Expr.isRead hs ho hsize
termination_by structural o => o

end

/-! ## Texts -/

/-- The tokens of a list are taken to its end. -/
theorem Cursor.takes_rest {tokens : List Token} {c : Cursor} (hc : c.rest = tokens)
    (hs : ∀ t ∈ tokens, t.span.isEmpty = false) :
    ∃ d, c.Takes (tokens.map Token.piece) d ∧ d.rest = [] := by
  induction tokens generalizing c with
  | nil => exact ⟨c, .nil, hc⟩
  | cons t tokens ih =>
    obtain ⟨ht, hs⟩ := List.forall_mem_cons.1 hs
    obtain ⟨d, hd, hrest⟩ := ih (c := c.pass t tokens) rfl hs
    exact ⟨d, .cons (Cursor.next?_of_rest hc) ht hd, hrest⟩

/-- A text that is laid out as words is scanned as the words. -/
theorem Parse.exists_start {ws : List Piece} {text : String} (h : Lays none ws text.toList)
    (hne : ws ≠ []) : ∃ c d, Parse.start .strict text = .ok c ∧ c.Takes ws d ∧ d.rest = [] := by
  obtain ⟨ps, htext, rfl, hps⟩ := h
  obtain ⟨tokens, hscan, hpieces⟩ := Token.exists_scan hps
  rw [htext, String.ofList_toList] at hscan
  obtain ⟨d, hd, hrest⟩ := Cursor.takes_rest (c := .ofTokens tokens) rfl
    fun t ht => Token.isEmpty_of_mem_scan hscan ht
  refine ⟨.ofTokens tokens, d, ?_, hpieces ▸ hd, hrest⟩
  unfold start
  split
  · simp_all
  · simp_all
  · simp_all

/-- The statements of a script are laid out line by line. -/
theorem Statement.lays_script {ss : List Statement} (h : ∀ s ∈ ss, s.LaysOut) :
    Lays none (listWords ss) ("\n".intercalate (ss.map source)).toList := by
  induction ss with
  | nil => exact .nil
  | cons s ss ih =>
    obtain ⟨hs, hss⟩ := List.forall_mem_cons.1 h
    cases ss with
    | nil =>
      simpa [listWords, words] using hs.terminated (show (none : Option Char).all isBreak from rfl)
    | cons other ss =>
      have hlays := (ih hss).newline.prepend (hs.terminated rfl)
      simpa [listWords, words, String.intercalate_cons_cons] using hlays

namespace Code

/-- Whether a program is a script. -/
def isScript : Code → Bool
  | .expression _ => false
  | .statement _ => true

/-- The text that a program is printed as. -/
def source : Code → String
  | .expression e => e.source
  | .statement s => s.scriptSource

/-- Whether a node may be a whole program: an expression that can stand alone, or a block with
statements in it. -/
def isWhole : Code → Bool
  | .expression e => e.isOperand
  | .statement (.block _ (_ :: _)) => true
  | _ => false

end Code

theorem Expr.words_ne_nil {e : Expr} (hs : (Code.expression e).isShaped = true)
    (ho : e.isOperand = true) : e.words ≠ [] := by
  cases e with
  | placeholder => cases hs
  | null => simp_all [isOperand, isNoArguments, words]
  | binary _ op => cases op <;> simp [words]
  | _ => simp [words]

/-- No statement is without words. -/
theorem Statement.IsRead.words_ne_nil {s : Statement} (h : s.IsRead) : s.words ≠ [] := by
  intro hnil
  obtain ⟨kind, hkind, -⟩ := h.first (hnil ▸ Cursor.Takes.nil (c := .ofTokens []))
  cases hkind

/-- An expression that is printed reads back, spans apart. -/
theorem Expr.parse_source {e : Expr} (hs : Printable e.nodes) (ho : e.isOperand = true)
    (hsize : size e.nodes < loopLimit) :
    ∃ e', Expr.parse .strict e.source = .ok e' ∧ e'.withoutSpans = e.withoutSpans := by
  have hne := Expr.words_ne_nil (hs _ (by cases e <;> exact List.mem_cons_self)).1 ho
  obtain ⟨c, d, hstart, ht, hd⟩ := Parse.exists_start (Expr.laysOut hs none (.inl rfl)) hne
  have hstop : d.Stops 0 := Cursor.stops_of_closes (by rw [Cursor.kind?_of_rest_nil hd]; rfl) 0
  obtain ⟨e', he', hr⟩ := (Expr.isRead hs ho hsize).whole (Nat.zero_le 1) ht hstop
  exact ⟨e', parse_eq_ok_iff.2 ⟨c, d, hstart, hr, hd⟩, he'⟩

/-- A script that is printed reads back, spans apart. -/
theorem Statement.parseScript_source (span : Span) {s : Statement} {ss : List Statement}
    (hs : Printable (listNodes (s :: ss))) (hsize : size (listNodes (s :: ss)) < loopLimit) :
    ∃ s', Statement.parseScript .strict (block span (s :: ss)).scriptSource = .ok s' ∧
      s'.withoutSpans = (block span (s :: ss)).withoutSpans := by
  have hread := Statement.isRead_list hs hsize
  have hlength := Statement.length_le_size (s :: ss)
  have hne : listWords (s :: ss) ≠ [] :=
    List.append_ne_nil_of_left_ne_nil (hread s List.mem_cons_self).words_ne_nil _
  obtain ⟨c, d, hstart, ht, hd⟩ :=
    Parse.exists_start (Statement.lays_script (Statement.laysOut_list hs)) hne
  obtain ⟨-, body, hbody, hr⟩ :=
    reads_statements hread 0 (by omega) ht (.inl (Cursor.kind?_of_rest_nil hd))
  exact ⟨.block ⟨c.position, d.position⟩ body,
    parseScript_eq_ok_iff.2 ⟨c, body, d, hstart, hr, hd, rfl⟩, by simp [withoutSpans, hbody]⟩

namespace Code

/-- A printed program reads back, spans apart. -/
theorem parse_source {code : Code} (hwhole : code.isWhole = true) (hs : Printable code.nodes)
    (hsize : size code.nodes < loopLimit) :
    ∃ code', parse .strict code.isScript code.source = .ok code' ∧
      code'.withoutSpans = code.withoutSpans := by
  unfold isWhole at hwhole
  split at hwhole
  · next e =>
    obtain ⟨e', he', heq⟩ := Expr.parse_source hs hwhole hsize
    exact ⟨.expression e', Except.map_eq_ok_iff.2 ⟨e', he', rfl⟩, congrArg Code.expression heq⟩
  · next span s ss =>
    simp only [nodes, Statement.nodes, size_cons] at hsize
    obtain ⟨s', hs', heq⟩ :=
      Statement.parseScript_source span (Code.printable_cons.1 hs).2 (by omega)
    exact ⟨.statement s', Except.map_eq_ok_iff.2 ⟨s', hs', rfl⟩, congrArg Code.statement heq⟩
  · cases hwhole

end Code

/-! ## Programs without numbers -/

/-- Whether a node is a number. -/
def Code.isNumber : Code → Bool
  | .expression (.number _ _) => true
  | _ => false

/-- Without numbers nothing starts with a digit. -/
theorem Expr.startsWithDigit_eq_false : ∀ {e : Expr},
    (∀ node ∈ e.nodes, node.isNumber = false) → e.startsWithDigit = false
  | .number _ _, h => by cases h _ List.mem_cons_self
  | .binary _ _ left _, h => by
    have hleft := Expr.startsWithDigit_eq_false fun node hnode =>
      h node (List.mem_cons_of_mem _ (List.mem_append_left _ hnode))
    simp [Expr.startsWithDigit, hleft]
  | .placeholder _, _ | .name _ _, _ | .typeName _ _, _ | .boolean _ _, _ | .string _ _, _
  | .null _, _ | .unary _ _ _, _ | .ternary _ _ _ _, _ | .lambda _ _ _, _ | .function _ _ _, _ =>
    rfl

theorem Expr.isUnsigned_eq_false {e : Expr} (h : ∀ node ∈ e.nodes, node.isNumber = false) :
    e.isUnsigned = false := by
  cases e with
  | number => cases h _ List.mem_cons_self
  | _ => rfl

namespace Code

variable {code : Code}

theorem keepsNumbers_of_isNumber (h : ∀ node ∈ code.nodes, node.isNumber = false) :
    code.keepsNumbers = true := by
  unfold keepsNumbers
  split
  · cases h _ List.mem_cons_self
  · have := Expr.startsWithDigit_eq_false fun node hnode => h node (List.mem_cons_of_mem _ hnode)
    simp [this]
  · have hleft := Expr.isUnsigned_eq_false fun node hnode =>
      h node (List.mem_cons_of_mem _ (List.mem_append_left _ hnode))
    have hright := Expr.isUnsigned_eq_false fun node hnode =>
      h node (List.mem_cons_of_mem _ (List.mem_append_right _ hnode))
    simp [hleft, hright]
  · rfl

/-- Parentheses stand wherever the parser would else read another tree: a program in the shape of
strict programs that has no numbers in it is printed as a text that reads back as the program, spans
apart. -/
theorem parse_source_of_shaped (hwhole : code.isWhole = true) (hs : Shaped code.nodes)
    (hnumbers : ∀ node ∈ code.nodes, node.isNumber = false) (hsize : size code.nodes < loopLimit) :
    ∃ code', parse .strict code.isScript code.source = .ok code' ∧
      code'.withoutSpans = code.withoutSpans := by
  refine parse_source hwhole (fun node hnode => ⟨hs node hnode, ?_⟩) hsize
  exact keepsNumbers_of_isNumber fun part hpart => hnumbers part (code.closed_nodes node hnode hpart)

/-- A branch without an `else`, whose body is a loop around a branch with one, and a lambda with a
sum in front of a member. -/
def nestedBranch : Code :=
  .statement (.block default [.branch default (.name default "a")
    (.whileLoop default (.name default "b")
      (.branch default (.name default "c")
        (.expression default (.binary default .call (.name default "d") (.null default)))
        (some (.assign default .assign (.name default "e")
          (.lambda default ["x"] (.unary default .negate (.binary default .call
            (.binary default .member
              (.binary default .add (.name default "x") (.name default "a")) (.name default "y"))
            (.binary default .group (.name default "x") (.string default "\n"))))))))) none])

theorem parse_source_of_nestedBranch :
    nestedBranch.source =
        "if (a) while (b) if (c) d(); else e = lambda x: -(x + a).y(x, \"\\n\");" ∧
      ∃ code, parse .strict nestedBranch.isScript nestedBranch.source = .ok code ∧
        code.withoutSpans = nestedBranch.withoutSpans :=
  ⟨by decide, parse_source_of_shaped (by decide) (by decide) (by decide)
    (by decide)⟩

/-! ## Programs that were read -/

/-- What was read strictly may be a whole program. -/
theorem isWhole_of_parse {isScript : Bool} {source : String}
    (h : parse .strict isScript source = .ok code) :
    code.isWhole = true ∧ code.isScript = isScript ∧ Shaped code.nodes := by
  cases isScript with
  | false =>
    obtain ⟨e, he, rfl⟩ := Except.map_eq_ok_iff.1 h
    obtain ⟨hs, ho⟩ := Expr.shaped_of_parse he
    exact ⟨ho, rfl, hs⟩
  | true =>
    obtain ⟨s, hs, rfl⟩ := Except.map_eq_ok_iff.1 h
    have hshape := (Statement.shaped_of_parseScript hs).1
    obtain ⟨c, body, d, hstart, hr, hd, rfl⟩ := Statement.parseScript_eq_ok_iff.1 hs
    refine ⟨?_, rfl, hshape⟩
    cases body with
    | cons => rfl
    | nil =>
      cases hr with
      | statementsDone => exact absurd hd (Parse.rest_ne_nil_of_start hstart)

/-- What was read strictly from fewer than half as many tokens as the loops of the parser go round
is printed as a text that reads back as the same tree, spans apart, if its numbers are written as
they are read. -/
theorem parse_source_of_parse {isScript : Bool} {source : String} {tokens : List Token}
    (hscan : Token.scan source = .ok tokens) (hlength : 2 * tokens.length < loopLimit)
    (h : parse .strict isScript source = .ok code)
    (hkeeps : ∀ node ∈ code.nodes, node.keepsNumbers = true) :
    ∃ code', parse .strict isScript code.source = .ok code' ∧
      code'.withoutSpans = code.withoutSpans := by
  obtain ⟨hwhole, rfl, hs⟩ := isWhole_of_parse h
  refine parse_source hwhole (fun node hnode => ⟨hs node hnode, hkeeps node hnode⟩) ?_
  cases code with
  | expression e =>
    obtain ⟨e', he, heq⟩ := Except.map_eq_ok_iff.1 h
    cases heq
    exact Nat.lt_of_le_of_lt (Expr.size_le_of_parse hscan he) hlength
  | statement s =>
    obtain ⟨s', hs', heq⟩ := Except.map_eq_ok_iff.1 h
    cases heq
    have := Statement.size_le_of_parseScript hscan hs'
    change 2 * tokens.length < 5000 at hlength
    change size s.nodes < 5000
    omega

/-- A negative number, a number that is cut in two, and numbers in other notations. -/
theorem parse_source_of_difference :
    ∃ code code', parse .strict false "f(-2 -1.50, 0x1F)[1e3]" = .ok code ∧
      code.source = "f(-2 - 1.5, 31)[1000]" ∧ parse .strict false code.source = .ok code' ∧
      code'.withoutSpans = code.withoutSpans := by
  have hscan : ((Token.scan "f(-2 -1.50, 0x1F)[1e3]").toOption.any
      (2 * ·.length < loopLimit)) = true := by decide
  have hparse : ((parse .strict false "f(-2 -1.50, 0x1F)[1e3]").toOption.any fun code =>
      code.nodes.all keepsNumbers && code.source == "f(-2 - 1.5, 31)[1000]") = true := by
    decide +kernel
  cases htokens : Token.scan "f(-2 -1.50, 0x1F)[1e3]" with
  | error e => simp [htokens, Except.toOption] at hscan
  | ok tokens =>
    cases hcode : parse .strict false "f(-2 -1.50, 0x1F)[1e3]" with
    | error e => simp [hcode, Except.toOption] at hparse
    | ok code =>
      simp only [htokens, hcode, Except.toOption, Option.any_some, decide_eq_true_eq,
        Bool.and_eq_true, List.all_eq_true, beq_iff_eq] at hscan hparse
      obtain ⟨code', hcode', heq⟩ := parse_source_of_parse htokens hscan hcode hparse.1
      exact ⟨code, code', rfl, hparse.2, hcode', heq⟩

end Code

end SearchScript
