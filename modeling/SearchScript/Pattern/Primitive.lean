import SearchScript.Pattern.Basic
import SearchScript.Pattern.Named
import SearchScript.Text.Blank
import SearchScript.Text.Digit

/-!
# The smallest parts of patterns

Single characters, escapes and the sets that they stand for, as they are read from the text of a
pattern. A text that is no pattern has no reading, and why does not matter.
-/

namespace SearchScript.Pattern

-- powers are those of the core library, whatever else is imported
attribute [local instance (high)] instPowNat

/-- How the text of a pattern is read. -/
structure Options where
  ignoreCase : Bool := false
  /-- Lines have starts and ends, not only the text. -/
  multiLine : Bool := false
  /-- The point stands for line feeds too. -/
  pointIsAll : Bool := false
  /-- Lines may end with a carriage return and a line feed. -/
  carriageReturns : Bool := false
  /-- Sets have characters beyond ASCII. -/
  unicode : Bool := true
  /-- Blanks and comments do not count. -/
  spaced : Bool := false
deriving DecidableEq, Repr

/-- What a primitive stands for. -/
inductive Primitive where
  /-- A character; it may be written as a byte. -/
  | literal (c : Char) (isByte : Bool)
  | any
  | look (look : Look)
  | set (set : CharSet)

/-! ## Blanks -/

/-- Text behind blanks and comments; a comment ends with its line. -/
def skipSpaced : (inComment : Bool) → List Char → List Char
  | _, [] => []
  | true, c :: cs => skipSpaced (c ≠ '\n') cs
  | false, c :: cs =>
    if Text.isBlank c then skipSpaced false cs
    else if c = '#' then skipSpaced true cs
    else c :: cs

/-- Text behind what does not count. -/
def Options.skip (o : Options) (cs : List Char) : List Char :=
  if o.spaced then skipSpaced false cs else cs

/-! ## Numbers -/

/-- Reads a number of decimal digits, between which blanks may stand in the spaced mode. Returns the
number of digits, their value and the rest. -/
def Options.spanDecimal (o : Options) : (fuel count value : Nat) → List Char → Nat × Nat × List Char
  | 0, count, value, cs => (count, value, cs)
  | _ + 1, count, value, [] => (count, value, [])
  | fuel + 1, count, value, c :: cs =>
    match digitValue? c with
    | some d => o.spanDecimal fuel (count + 1) (value * 10 + d) (o.skip cs)
    | none => (count, value, c :: cs)

/-- The largest number of a repetition. -/
def maxCount : Nat := 2 ^ (32 : Nat) - 1

/-- Reads a number of a repetition, with blanks at its ends. -/
def Options.readCount? (o : Options) (cs : List Char) : Option Nat × List Char :=
  let (count, value, rest) := o.spanDecimal (cs.length + 1) 0 0 (Text.dropBlanks cs)
  (if count = 0 ∨ maxCount < value then none else some value, o.skip (Text.dropBlanks rest))

/-- The character with a code point. -/
def charOf? (n : Nat) : Option Char := if n.isValidChar then some (Char.ofNat n) else none

/-- Reads some hexadecimal digits. -/
def Options.readFixedHex? (o : Options) : (count value : Nat) → List Char → Option (Nat × List Char)
  | 0, value, cs => some (value, cs)
  | _ + 1, _, [] => none
  | count + 1, value, c :: cs =>
    match radixDigit? 16 c with
    | some d => o.readFixedHex? count (value * 16 + d) (o.skip cs)
    | none => none

/-- Reads hexadecimal digits up to a closing brace; there must be one. -/
def Options.readBracedHex? (o : Options) :
    (fuel count value : Nat) → List Char → Option (Nat × List Char)
  | 0, _, _, _ | _, _, _, [] => none
  | fuel + 1, count, value, c :: cs =>
    if c = '\x7d' then if count = 0 then none else some (value, o.skip cs)
    else
      match radixDigit? 16 c with
      | some d => o.readBracedHex? fuel (count + 1) (value * 16 + d) (o.skip cs)
      | none => none

/-- Reads the code point of a character, behind the letter that tells its number of digits. -/
def Options.readHex? (o : Options) (digits : Nat) (cs : List Char) :
    Option (Primitive × List Char) :=
  match o.skip cs with
  | [] => none
  | '\x7b' :: cs => do
    let (value, rest) ← o.readBracedHex? (cs.length + 1) 0 0 (o.skip cs)
    some (.literal (← charOf? value) false, rest)
  | cs => do
    let (value, rest) ← o.readFixedHex? digits 0 cs
    some (.literal (← charOf? value) (digits == 2), rest)

/-! ## Sets -/

/-- A set as it counts: with all letters that differ in case only if case does not matter, and all
other characters if it is negated. Outside of Unicode only characters of ASCII may remain. -/
def Options.close? (o : Options) (negated : Bool) (set : CharSet) : Option CharSet :=
  if o.unicode then
    let set := if o.ignoreCase then .ignoringCase set else set
    some (if negated then .compl set else set)
  else
    let set := if o.ignoreCase then .ignoringAsciiCase set else set
    let set := if negated then .compl set else set
    if (List.range 0x80).any fun n => set.containsCode (0x80 + n) then none
    else some (.inter .ascii set)

/-- The set of an escape such as `\d`. -/
def Options.class? (o : Options) (unicodeSet asciiSet : CharSet) (negated : Bool) :
    Option CharSet :=
  if o.unicode then some (if negated then .compl unicodeSet else unicodeSet)
  else if negated then none
  else some asciiSet

/-- Reads the characters up to a closing brace. -/
def Options.spanName? (o : Options) : (fuel : Nat) → List Char → Option (List Char × List Char)
  | 0, _ | _, [] => none
  | fuel + 1, c :: cs =>
    if c = '\x7d' then some ([], cs)
    else (o.spanName? fuel (o.skip cs)).map fun (name, rest) => (c :: name, rest)

/-- The parts of a text in front of a mark and behind it. -/
def splitAt? (mark : List Char) : List Char → Option (List Char × List Char)
  | [] => none
  | c :: cs =>
    if mark.isPrefixOf (c :: cs) then some ([], (c :: cs).drop mark.length)
    else (splitAt? mark cs).map fun (front, rest) => (c :: front, rest)

/-- The set that the text in the braces of a property stands for. -/
def namedSet? (text : List Char) : Option CharSet :=
  match splitAt? ['!', '='] text, splitAt? [':'] text, splitAt? ['='] text with
  | some (property, value), _, _ | none, some (property, value), _
  | none, none, some (property, value) => CharSet.ofValue? property value
  | none, none, none => CharSet.ofName? text

/-- Reads the name of a property, behind its letter. -/
def Options.readProperty? (o : Options) (negated : Bool) (cs : List Char) :
    Option (Primitive × List Char) := do
  let (name, rest) ← match o.skip cs with
    | [] => none
    | '\x7b' :: cs => o.spanName? (cs.length + 1) (o.skip cs)
    | c :: cs => if c = '\\' then none else some ([c], o.skip cs)
  if o.unicode then
    let set ← namedSet? name
    some (.set (← o.close? negated set), rest)
  else none

/-! ## Escapes -/

/-- The characters that have a meaning of their own in patterns. -/
def isMeta (c : Char) : Bool := "\\.+*?()|[]\x7b\x7d^$#&-~".toList.contains c

/-- Whether a character may be escaped to stand for itself: ASCII but letters, digits and the angle
brackets. -/
def isEscapable (c : Char) : Bool :=
  isMeta c || (c.toNat < 0x80 && !c.isAlphanum && c ≠ '<' && c ≠ '>')

/-- The control characters that letters stand for. -/
def controlEscapes : List (Char × Char) :=
  [('a', '\x07'), ('f', '\x0C'), ('t', '\t'), ('n', '\n'), ('r', '\r'), ('v', '\x0B')]

/-- Whether a character may stand in the name of a kind of word boundary. -/
def isBoundaryChar (c : Char) : Bool := c.isAlpha || c = '-'

/-- Reads the name of a kind of word boundary. -/
def Options.spanBoundary (o : Options) : (fuel : Nat) → List Char → List Char × List Char
  | 0, cs => ([], cs)
  | _, [] => ([], [])
  | fuel + 1, c :: cs =>
    if isBoundaryChar c then
      let (name, rest) := o.spanBoundary fuel (o.skip cs)
      (c :: name, rest)
    else ([], c :: cs)

/-- The condition with a name. -/
def boundaryNamed? (unicode : Bool) (name : List Char) : Option Look :=
  match String.ofList name with
  | "start" => some (.wordStart unicode)
  | "end" => some (.wordEnd unicode)
  | "start-half" => some (.notBehindWord unicode)
  | "end-half" => some (.notBeforeWord unicode)
  | _ => none

/-- Reads what may follow the letter of a word boundary: the name of its kind in braces. Braces that
start with anything else belong to a repetition. -/
def Options.readBoundary? (o : Options) (cs : List Char) : Option (Primitive × List Char) :=
  let plain : Option (Primitive × List Char) := some (.look (.wordBoundary o.unicode), cs)
  match cs with
  | '\x7b' :: inside =>
    match o.skip inside with
    | [] => none
    | c :: rest =>
      if !isBoundaryChar c then plain
      else
        match o.spanBoundary (rest.length + 2) (c :: rest) with
        | (name, '\x7d' :: rest) => (boundaryNamed? o.unicode name).map (.look ·, rest)
        | _ => none
  | _ => plain

/-- Reads an escape behind its backslash. -/
def Options.readEscape? (o : Options) : List Char → Option (Primitive × List Char)
  | [] => none
  | c :: cs =>
    let look (look : Look) : Option (Primitive × List Char) := some (.look look, cs)
    let set (set : Option CharSet) : Option (Primitive × List Char) := set.map (.set ·, cs)
    match c with
    | 'x' => o.readHex? 2 cs
    | 'u' => o.readHex? 4 cs
    | 'U' => o.readHex? 8 cs
    | 'p' => o.readProperty? false cs
    | 'P' => o.readProperty? true cs
    | 'd' => set (o.class? .digit .asciiDigit false)
    | 'D' => set (o.class? .digit .asciiDigit true)
    | 's' => set (o.class? .blank .asciiBlank false)
    | 'S' => set (o.class? .blank .asciiBlank true)
    | 'w' => set (o.class? .word .asciiWord false)
    | 'W' => set (o.class? .word .asciiWord true)
    | 'A' => look .textStart
    | 'z' => look .textEnd
    | 'b' => o.readBoundary? cs
    | 'B' => look (.notWordBoundary o.unicode)
    | '<' => look (.wordStart o.unicode)
    | '>' => look (.wordEnd o.unicode)
    | c =>
      if isEscapable c then some (.literal c false, cs)
      else (controlEscapes.lookup c).map (.literal · false, cs)

end SearchScript.Pattern
