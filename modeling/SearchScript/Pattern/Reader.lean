import SearchScript.Pattern.Class

/-!
# Reading patterns

`Pattern.read?` reads the text of a pattern. There is no reading of a text that is no pattern, nor
of one that is nested too deeply or would take too large an automaton: `a{1000000}` is refused.
-/

namespace SearchScript.Pattern

-- powers and sums are those of the core library, whatever else is imported
attribute [local instance (high)] instPowNat Zero.ofOfNat0

/-- A part of a pattern, its depth, and about how many bytes its automaton takes. -/
structure Piece where
  pattern : Pattern PatternStep
  depth : Nat
  size : Nat
  /-- Whether a repetition may follow; it may not behind a change of options. -/
  isRepeatable : Bool := true

namespace Piece

/-- The bytes of a state of an automaton. -/
def stateSize : Nat := 32

/-- The bytes that a range of a set takes. -/
def rangeSize : Nat := 48

/-- A change of options. -/
def setting : Piece := ⟨.empty, 0, 0, false⟩

/-- The piece of a condition. -/
def ofLook (look : Look) : Piece := { pattern := .step (.look look), depth := 0, size := stateSize }

/-- The piece of a set. -/
def ofSet (set : CharSet) (depth : Nat) : Piece :=
  { pattern := .step (.char set), depth, size := max stateSize (rangeSize * set.rangeCount) }

/-- The piece of one character. -/
def ofChar (c : Char) (set : CharSet) : Piece :=
  { pattern := .step (.char set), depth := 0, size := stateSize * c.utf8Size }

/-- The largest depth of some pieces. -/
def maxDepth (pieces : List Piece) : Nat :=
  pieces.foldl (fun depth piece => max depth piece.depth) 0

/-- The pieces one behind another. -/
def sequence : List Piece → Piece
  | [] => { pattern := .empty, depth := 0, size := stateSize }
  | [piece] => { piece with isRepeatable := true }
  | pieces =>
    { pattern := pieces.foldr (fun piece rest => .both piece.pattern rest) .empty
      depth := 1 + maxDepth pieces
      size := (pieces.map (·.size)).sum }

/-- One of some pieces. -/
def choice (first : Piece) : List Piece → Piece
  | [] => first
  | others =>
    { pattern := others.foldl (fun choice piece => .either choice piece.pattern) first.pattern
      depth := 1 + maxDepth (first :: others)
      size := ((first :: others).map fun piece => piece.size + 4).sum + 2 * stateSize }

/-- A group of pieces; one that captures takes two more states. -/
def group (captures : Bool) (piece : Piece) : Piece :=
  { pattern := piece.pattern
    depth := 1 + piece.depth
    size := piece.size + if captures then 2 * stateSize else 0 }

/-- A repetition. What suits the empty text only is not repeated in the automaton. -/
def repetition (least : Nat) (most : Option Nat) (piece : Piece) : Piece :=
  let copies := match most with
    | some most => most
    | none => max least 1
  let copies := if piece.pattern.isEmptyOnly then min copies 1 else copies
  let optional := (most.getD least) - least
  { pattern := .repeated least most piece.pattern
    depth := 1 + piece.depth
    size := copies * piece.size + (min copies optional + 2) * stateSize }

end Piece

/-! ## Primitives -/

/-- The set of the point. -/
def Options.pointSet (o : Options) : CharSet :=
  if o.pointIsAll then .all
  else if o.carriageReturns then .compl (.ranges [(0x0A, 0x0A), (0x0D, 0x0D)])
  else .compl (.single '\n')

/-- The piece of a primitive. -/
def Options.piece? (o : Options) : Primitive → Option Piece
  | .literal c isByte =>
    if o.unicode then
      some (.ofChar c (if o.ignoreCase then .ignoringCase (.single c) else .single c))
    else if isByte && 0x80 ≤ c.toNat then none
    else some (.ofChar c (if o.ignoreCase then .ignoringAsciiCase (.single c) else .single c))
  | .any => if o.unicode then some (.ofSet o.pointSet 0) else none
  | .look look => some (.ofLook look)
  | .set set => some (.ofSet set 0)

/-- Reads a primitive. -/
def Options.readPrimitive? (o : Options) : List Char → Option (Primitive × List Char)
  | [] => none
  | '\\' :: cs => o.readEscape? cs
  | '.' :: cs => some (.any, cs)
  | '^' :: cs =>
    some (.look (if o.multiLine then .lineStart o.carriageReturns else .textStart), cs)
  | '$' :: cs =>
    some (.look (if o.multiLine then .lineEnd o.carriageReturns else .textEnd), cs)
  | c :: cs => some (.literal c false, cs)

/-! ## Options -/

/-- The options with the one of a letter switched. -/
def Options.switch? (o : Options) (on : Bool) : Char → Option Options
  | 'i' => some { o with ignoreCase := on }
  | 'm' => some { o with multiLine := on }
  | 's' => some { o with pointIsAll := on }
  | 'R' => some { o with carriageReturns := on }
  | 'u' => some { o with unicode := on }
  | 'x' => some { o with spaced := on }
  -- which of the possible parts is preferred does not matter
  | 'U' => some o
  | _ => none

/-- The options with those of some letters switched on, and those behind a dash switched off. No
letter may be repeated, and the dash is not the last. -/
def Options.change? (o : Options) : (on : Bool) → (seen letters : List Char) → Option Options
  | on, seen, [] => if !on && seen.head? == some '-' then none else some o
  | on, seen, letter :: rest =>
    if seen.contains letter then none
    else if letter = '-' then o.change? false (letter :: seen) rest
    else do
      let o ← o.switch? on letter
      o.change? on (letter :: seen) rest

/-! ## Groups -/

/-- Whether a character may stand in the name of a group. -/
def isNameChar (isFirst : Bool) (c : Char) : Bool :=
  if isFirst then c = '_' || CharSet.alphabetic.contains c
  else ['_', '.', '[', ']'].contains c || CharSet.alphanumeric.contains c

/-- Whether a text is the name of a group. -/
def isGroupName : List Char → Bool
  | [] => false
  | c :: cs => isNameChar true c && cs.all (isNameChar false)

/-- What an opening parenthesis begins. -/
inductive Opening where
  /-- A group, the options in it, whether it captures, and its name. -/
  | group (options : Options) (captures : Bool) (name : Option String)
  /-- Options for the rest of the group around, without a group of their own. -/
  | setting (options : Options)

/-- Reads a named group, behind its opening angle bracket. -/
def Options.readNamed? (o : Options) (cs : List Char) : Option (Opening × List Char) :=
  let name := cs.takeWhile (· ≠ '>')
  match cs.drop name.length with
  | [] => none
  | _ :: rest =>
    if isGroupName name then some (.group o true (some (String.ofList name)), rest) else none

/-- Reads options, behind their question mark. -/
def Options.readChange? (o : Options) (cs : List Char) : Option (Opening × List Char) := do
  let letters := cs.takeWhile fun c => c ≠ ':' ∧ c ≠ ')'
  let changed ← o.change? true [] letters
  match cs.drop letters.length with
  | ':' :: rest => some (.group changed false none, rest)
  | ')' :: rest => if letters.isEmpty then none else some (.setting changed, rest)
  | _ => none

/-- Reads what begins behind an opening parenthesis. Conditions on what is in front or behind are
not known. -/
def Options.readOpening? (o : Options) (cs : List Char) : Option (Opening × List Char) :=
  match o.skip cs with
  | '?' :: '=' :: _ | '?' :: '!' :: _ | '?' :: '<' :: '=' :: _ | '?' :: '<' :: '!' :: _ => none
  | '?' :: 'P' :: '<' :: cs | '?' :: '<' :: cs => o.readNamed? cs
  | '?' :: cs => o.readChange? cs
  | cs => some (.group o true none, cs)

/-! ## Repetitions -/

/-- Text behind a question mark that makes a repetition prefer to be short. -/
def dropLazy : List Char → List Char
  | '?' :: cs => cs
  | cs => cs

/-- Reads the numbers of a repetition, behind the opening brace. -/
def Options.readBounds? (o : Options) (cs : List Char) :
    Option ((Nat × Option Nat) × List Char) := do
  let (least?, rest) := o.readCount? (o.skip cs)
  let least ← least?
  let close (bounds : Nat × Option Nat) (rest : List Char) :
      Option ((Nat × Option Nat) × List Char) :=
    match rest with
    | '\x7d' :: rest => some (bounds, dropLazy (o.skip rest))
    | _ => none
  match rest with
  | ',' :: rest =>
    match o.skip rest with
    | '\x7d' :: rest => close (least, none) ('\x7d' :: rest)
    | rest =>
      let (most?, rest) := o.readCount? rest
      let most ← most?
      if least ≤ most then close (least, some most) rest else none
  | rest => close (least, some least) rest

/-- Reads a repetition from the front of a text, if there is one: its bounds and the rest. The inner
option is empty if what stands there is no repetition. -/
def Options.readRepetition? (o : Options) (cs : List Char) :
    Option (Option ((Nat × Option Nat) × List Char)) :=
  match cs with
  | '?' :: cs => some (some ((0, some 1), dropLazy cs))
  | '*' :: cs => some (some ((0, none), dropLazy cs))
  | '+' :: cs => some (some ((1, none), dropLazy cs))
  | '\x7b' :: cs => (o.readBounds? cs).map some
  | _ => some none

/-! ## Patterns -/

/-- What was read of a group: its choices and the pieces of the last one, both the last first. -/
structure Progress where
  options : Options
  names : List String
  choices : List Piece := []
  pieces : List Piece := []

namespace Progress

/-- The progress with a piece more. -/
def push (p : Progress) (piece : Piece) : Progress := { p with pieces := piece :: p.pieces }

/-- The progress at the start of the next choice. -/
def nextChoice (p : Progress) : Progress :=
  { p with choices := .sequence p.pieces.reverse :: p.choices, pieces := [] }

/-- The piece that was read. -/
def piece (p : Progress) : Piece :=
  match (Piece.sequence p.pieces.reverse :: p.choices).reverse with
  | [] => .sequence []
  | first :: others => .choice first others

/-- The progress with the last piece repeated. -/
def repeatLast? (p : Progress) (least : Nat) (most : Option Nat) : Option Progress :=
  match p.pieces with
  | last :: rest =>
    if last.isRepeatable then some { p with pieces := .repetition least most last :: rest }
    else none
  | [] => none

end Progress

/-- Reads a group up to its closing parenthesis, or a pattern up to its end. -/
def readGroup? : (fuel : Nat) → Progress → List Char → Option (Progress × List Char)
  | 0, _, _ => none
  | fuel + 1, p, cs =>
    match p.options.skip cs with
    | [] => some (p, [])
    | ')' :: rest => some (p, ')' :: rest)
    | '|' :: rest => readGroup? fuel p.nextChoice rest
    | '[' :: rest => do
      let (set, rest) ← p.options.readClass? (2 * rest.length + 2) rest
      readGroup? fuel (p.push (.ofSet set.set set.depth)) rest
    | '(' :: rest => do
      match ← p.options.readOpening? rest with
      | (.setting options, rest) =>
        readGroup? fuel { p.push .setting with options := options } rest
      | (.group options captures name, rest) =>
        if (name.map p.names.contains).getD false then none
        else
          let inner : Progress := { options := options, names := name.toList ++ p.names }
          match ← readGroup? fuel inner rest with
          | (inner, ')' :: rest) =>
            readGroup? fuel { p.push (.group captures inner.piece) with names := inner.names } rest
          | _ => none
    | rest => do
      match ← p.options.readRepetition? rest with
      | some ((least, most), rest) => readGroup? fuel (← p.repeatLast? least most) rest
      | none =>
        let (primitive, rest) ← p.options.readPrimitive? rest
        readGroup? fuel (p.push (← p.options.piece? primitive)) rest

/-- The largest depth of a pattern. -/
def depthLimit : Nat := 250

/-- The most bytes that the automaton of a pattern may take. -/
def sizeLimit : Nat := 10 * 2 ^ (20 : Nat)

/-- Reads the text of a pattern. -/
def read? (text : String) : Option (Pattern PatternStep) :=
  let cs := text.toList
  match readGroup? (cs.length + 1) { options := {}, names := [] } cs with
  | some (p, []) =>
    let piece := p.piece
    if piece.depth ≤ depthLimit ∧ piece.size ≤ sizeLimit then some piece.pattern else none
  | _ => none

end SearchScript.Pattern
