import SearchScript.Pattern.Primitive

/-!
# Bracketed sets

The sets in brackets: characters, ranges, escapes, other sets, and what remains of two sets by `&&`,
`--` and `~~`. The operations bind equally tightly, from the left.

The depth of a set counts the brackets, unions and operations that enclose one another in it.
-/

namespace SearchScript.Pattern

/-- A set and its depth. -/
structure DeepSet where
  set : CharSet
  depth : Nat

/-- The operations on sets. -/
inductive SetOperation where
  | inter
  | diff
  | symmDiff
deriving DecidableEq, Repr

/-- The union of the items of a set. -/
def DeepSet.ofItems : List DeepSet → DeepSet
  | [] => ⟨.empty, 0⟩
  | [item] => item
  | first :: rest =>
    ⟨rest.foldl (fun union item => .union union item.set) first.set,
      1 + (first :: rest).foldl (fun depth item => max depth item.depth) 0⟩

/-- A set that takes part in an operation: with all letters that differ in case only if case does
not matter. -/
def Options.operand (o : Options) (set : CharSet) : CharSet :=
  if !o.ignoreCase then set
  else if o.unicode then .ignoringCase set
  else .ignoringAsciiCase set

/-- What an operation makes of two sets. -/
def Options.combine (o : Options) (operation : SetOperation) (a b : DeepSet) : DeepSet :=
  let left := o.operand a.set
  let right := o.operand b.set
  let set := match operation with
    | .inter => .inter left right
    | .diff => .diff left right
    | .symmDiff => .symmDiff left right
  ⟨set, 1 + max a.depth b.depth⟩

/-- What is pending in front of an operand: a set and the operation on it. -/
abbrev Pending := Option (DeepSet × SetOperation)

/-- The set that comes of what is pending and an operand. -/
def Options.settle (o : Options) (pending : Pending) (operand : DeepSet) : DeepSet :=
  match pending with
  | none => operand
  | some (left, operation) => o.combine operation left operand

/-- The code point of a character in a set. Outside of Unicode it must be ASCII or written as a
byte. -/
def Options.member? (o : Options) : Primitive → Option Nat
  | .literal c isByte => if o.unicode || isByte || c.toNat < 0x80 then some c.toNat else none
  | _ => none

/-- The set of one item. -/
def Options.item? (o : Options) : Primitive → Option CharSet
  | .set set => some set
  | p => (o.member? p).map fun n => .ranges [(n, n)]

/-- Reads a character or an escape in a set. -/
def Options.readMember? (o : Options) : List Char → Option (Primitive × List Char)
  | [] => none
  | '\\' :: cs => o.readEscape? cs
  | c :: cs => some (.literal c false, cs)

/-- The first character behind a dash that counts. -/
def Options.peek? (o : Options) (cs : List Char) : Option Char :=
  if !o.spaced then cs.head?
  else
    let front := Text.dropBlanks cs
    match (if front.head? = some '#' then Text.dropBlanks (front.drop 1) else front) with
    | c :: _ => some c
    | [] => cs.head?

/-- Reads a character, an escape or a range in a set. -/
def Options.readRange? (o : Options) (cs : List Char) : Option (CharSet × List Char) := do
  let (first, rest) ← o.readMember? cs
  match o.skip rest with
  | [] => none
  | '-' :: behind =>
    if o.peek? behind = some ']' ∨ o.peek? behind = some '-' then
      some (← o.item? first, '-' :: behind)
    else
      let (last, rest) ← o.readMember? (o.skip behind)
      let low ← o.member? first
      let high ← o.member? last
      if low ≤ high then some (.ranges [(low, high)], rest) else none
  | rest => some (← o.item? first, rest)

/-- Reads the name of a class of ASCII characters, behind its opening bracket. -/
def Options.readAsciiClass? (o : Options) (cs : List Char) :
    Option (Option CharSet × List Char) :=
  match cs with
  | ':' :: rest =>
    let (negated, rest) := match rest with
      | '^' :: rest => (true, rest)
      | rest => (false, rest)
    let name := rest.takeWhile (· ≠ ':')
    match rest.drop name.length with
    | ':' :: ']' :: rest =>
      (CharSet.asciiClasses.lookup (String.ofList name)).map fun set =>
        (o.close? negated set, rest)
    | _ => none
  | _ => none

/-- Reads the dashes at the start of a set, each of which stands for itself. -/
def Options.spanDashes (o : Options) : (fuel : Nat) → List Char → List DeepSet × List Char
  | fuel + 1, '-' :: cs =>
    let (dashes, rest) := o.spanDashes fuel (o.skip cs)
    (⟨.single '-', 0⟩ :: dashes, rest)
  | _, cs => ([], cs)

mutual

/-- Reads a set behind its opening bracket. -/
def Options.readClass? (o : Options) : (fuel : Nat) → List Char → Option (DeepSet × List Char)
  | 0, _ => none
  | fuel + 1, cs => do
    let (negated, cs) := match o.skip cs with
      | '^' :: cs => (true, o.skip cs)
      | cs => (false, cs)
    let (dashes, cs) := o.spanDashes (cs.length + 1) cs
    let (items, cs) := match dashes, cs with
      | [], ']' :: cs => ([⟨.single ']', 0⟩], o.skip cs)
      | _, _ => (dashes, cs)
    let (inside, rest) ← o.readItems? fuel none items cs
    some (⟨← o.close? negated inside.set, 1 + inside.depth⟩, rest)

/-- Reads the items of a set up to its closing bracket. -/
def Options.readItems? (o : Options) :
    (fuel : Nat) → Pending → List DeepSet → List Char → Option (DeepSet × List Char)
  | 0, _, _, _ => none
  | fuel + 1, pending, items, cs =>
    let operate (operation : SetOperation) (cs : List Char) :=
      o.readItems? fuel (some (o.settle pending (.ofItems items), operation)) [] cs
    match o.skip cs with
    | [] => none
    | ']' :: rest => some (o.settle pending (.ofItems items), rest)
    | '&' :: '&' :: rest => operate .inter rest
    | '-' :: '-' :: rest => operate .diff rest
    | '~' :: '~' :: rest => operate .symmDiff rest
    | '[' :: rest =>
      match o.readAsciiClass? rest with
      | some (set, rest) => do
        o.readItems? fuel pending (items ++ [⟨← set, 0⟩]) rest
      | none => do
        let (inner, rest) ← o.readClass? fuel rest
        o.readItems? fuel pending (items ++ [inner]) rest
    | rest => do
      let (set, rest) ← o.readRange? rest
      o.readItems? fuel pending (items ++ [⟨set, 0⟩]) rest

end

end SearchScript.Pattern
