import SearchScript.Pattern.Reader

/-!
# Testing texts

A text has a place in front of each of its characters and one at its end. A set of places is a
natural number whose bits tell which places it has. A pattern takes a set of places to the set of
those places at which a part that starts at one of the former can end.

A repetition needs to be followed only as often as the text has places: after that many rounds the
set of places no longer changes.
-/

namespace SearchScript.Pattern

-- powers are those of the core library, whatever else is imported
attribute [local instance (high)] instPowNat

/-- A step on the places of one text: the places at which it can be taken, and whether it leads
behind the next character or stays. -/
structure Move where
  places : Nat
  advances : Bool
deriving DecidableEq, Repr

namespace Move

/-- The places to which a step leads. -/
def image (m : Move) (from_ : Nat) : Nat :=
  if m.advances then (from_ &&& m.places) <<< 1 else from_ &&& m.places

end Move

/-- The places at which some conditions hold, in the order of the places. -/
def placesOf : List Bool → Nat
  | [] => 0
  | holds :: rest => 2 * placesOf rest + if holds then 1 else 0

/-- The characters in front of and behind each place of a text; `before` stands in front of it. -/
def neighbours : (before : Option Char) → List Char → List (Option Char × Option Char)
  | before, [] => [(before, none)]
  | before, c :: cs => (before, some c) :: neighbours (some c) cs

/-- Whether a character, if there is one, is part of a word. -/
def isWordChar (unicode : Bool) : Option Char → Bool
  | none => false
  | some c => (if unicode then CharSet.word else CharSet.asciiWord).contains c

/-- Whether a condition holds between two characters. -/
def Look.holds (before after : Option Char) : Look → Bool
  | .textStart => before.isNone
  | .textEnd => after.isNone
  | .lineStart false => before.isNone || before == some '\n'
  | .lineStart true =>
    before.isNone || before == some '\n' || (before == some '\r' && after != some '\n')
  | .lineEnd false => after.isNone || after == some '\n'
  | .lineEnd true =>
    after.isNone || after == some '\r' || (after == some '\n' && before != some '\r')
  | .wordBoundary unicode => isWordChar unicode before != isWordChar unicode after
  | .notWordBoundary unicode => isWordChar unicode before == isWordChar unicode after
  | .wordStart unicode => !isWordChar unicode before && isWordChar unicode after
  | .wordEnd unicode => isWordChar unicode before && !isWordChar unicode after
  | .notBehindWord unicode => !isWordChar unicode before
  | .notBeforeWord unicode => !isWordChar unicode after

/-- A step on the places of a text. -/
def PatternStep.move (text : List Char) : PatternStep → Move
  | .char set => ⟨placesOf (text.map set.contains), true⟩
  | .look look =>
    ⟨placesOf ((neighbours none text).map fun (before, after) => Look.holds before after look),
      false⟩

/-- The places to which a function leads in a number of rounds, or in no more rounds than change the
places. -/
def rounds (f : Nat → Nat) : Nat → Nat → Nat
  | 0, places => places
  | n + 1, places =>
    let next := f places
    if next = places then places else rounds f n next

/-- The places to which a pattern leads in a text of some number of places. -/
def image (size : Nat) : Pattern Move → Nat → Nat
  | empty, places => places
  | step m, places => m.image places
  | both a b, places => b.image size (a.image size places)
  | either a b, places => a.image size places ||| b.image size places
  | repeated least most a, places =>
    let start := rounds (a.image size) (min least size) places
    let more := match most with
      | none => size
      | some most => min (most - least) size
    rounds (fun places => places ||| a.image size places) more start

/-- Whether a part of a text suits a pattern. -/
def occursIn (pattern : Pattern PatternStep) (text : List Char) : Bool :=
  let size := text.length + 1
  (pattern.map (PatternStep.move text)).image size (2 ^ size - 1) != 0

/-- Whether a part of a text suits the pattern that is written in another text; there is no answer
if that is no pattern. -/
def test? (pattern text : String) : Option Bool :=
  (read? pattern).map fun p => p.occursIn text.toList

end SearchScript.Pattern
