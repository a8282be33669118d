import SearchScript.Span

/-!
# Places in a document

An editor names a place in a text by its line and by the number of UTF-16 units in front of it on
that line; a program text is measured in bytes. A line ends with its line feed, and the place of the
line feed is the last one on the line.

* `Position.ofOffset` — the place of a byte offset
* `Position.toOffset?` — the offset of a place, if the text has such a line
-/

namespace SearchScript

/-- A place in a text, counted from zero. -/
structure Position where
  line : Nat
  character : Nat
deriving DecidableEq, Repr, Inhabited

/-- The number of UTF-16 units of a character: two above the first 2^16 code points. -/
def utf16Length (c : Char) : Nat := if c.toNat < 0x10000 then 1 else 2

namespace Position

/-- The place in front of the first character. -/
def start : Position := ⟨0, 0⟩

/-- The place behind a character. -/
def advance (p : Position) (c : Char) : Position :=
  if c = '\n' then ⟨p.line + 1, 0⟩ else ⟨p.line, p.character + utf16Length c⟩

/-- The place of an offset in the characters that start at a place, behind `passed` bytes. -/
def ofOffsetFrom (offset : Nat) : (here : Position) → (passed : Nat) → List Char → Position
  | here, _, [] => here
  | here, passed, c :: rest =>
    if offset ≤ passed then here
    else ofOffsetFrom offset (here.advance c) (passed + c.utf8Size) rest

/-- The place of a byte offset. An offset inside a character counts as the one behind it, and one
behind the text as its end. -/
def ofOffset (source : String) (offset : Nat) : Position :=
  ofOffsetFrom offset start 0 source.toList

/-- The offset of a place in the characters that start at a place, behind `passed` bytes. -/
def toOffsetFrom? (place : Position) : (here : Position) → (passed : Nat) → List Char → Option Nat
  | here, passed, [] => if here.line = place.line then some passed else none
  | here, passed, c :: rest =>
    if here.line = place.line ∧ (place.character ≤ here.character ∨ c = '\n') then some passed
    else toOffsetFrom? place (here.advance c) (passed + c.utf8Size) rest

/-- The byte offset of a place. A place inside a surrogate pair counts as the one behind it, and one
behind the end of its line as the end. -/
def toOffset? (place : Position) (source : String) : Option Nat :=
  toOffsetFrom? place start 0 source.toList

end Position

/-- The characters between two places. -/
structure Range where
  start : Position
  stop : Position
deriving DecidableEq, Repr, Inhabited

/-- The places of a span. -/
def Range.ofSpan (source : String) (span : Span) : Range :=
  ⟨.ofOffset source span.start, .ofOffset source span.stop⟩

end SearchScript
