import SearchScript.Pattern.CharSet

/-!
# Patterns

A pattern describes parts of a text. What it captures does not matter here, nor whether a repetition
prefers to be long or short: a text is only tested for a part that suits the pattern.
-/

namespace SearchScript

/-- Conditions on a place in a text. -/
inductive Look where
  | textStart
  | textEnd
  /-- The start of a line; lines may end with a carriage return and a line feed. -/
  | lineStart (carriageReturns : Bool)
  /-- The end of a line. -/
  | lineEnd (carriageReturns : Bool)
  /-- A word starts or ends here. -/
  | wordBoundary (unicode : Bool)
  /-- No word starts or ends here. -/
  | notWordBoundary (unicode : Bool)
  | wordStart (unicode : Bool)
  | wordEnd (unicode : Bool)
  /-- There is no character of a word in front. -/
  | notBehindWord (unicode : Bool)
  /-- There is no character of a word behind. -/
  | notBeforeWord (unicode : Bool)
deriving DecidableEq, Repr

/-- Patterns over some kind of steps: a step is a character of a set, or a condition. -/
inductive Pattern (α : Type) where
  /-- The empty text. -/
  | empty
  | step (step : α)
  /-- One part behind another. -/
  | both (a b : Pattern α)
  /-- One of two parts. -/
  | either (a b : Pattern α)
  /-- A part as often as allowed; `most` is none if there is no upper limit. -/
  | repeated (least : Nat) (most : Option Nat) (a : Pattern α)

/-- What a pattern is made of. -/
inductive PatternStep where
  | char (set : CharSet)
  | look (look : Look)

namespace Pattern

variable {α β : Type}

/-- The pattern with its steps replaced. -/
def map (f : α → β) : Pattern α → Pattern β
  | empty => empty
  | step s => step (f s)
  | both a b => both (a.map f) (b.map f)
  | either a b => either (a.map f) (b.map f)
  | repeated least most a => repeated least most (a.map f)

/-- Whether the pattern suits no text but the empty one. -/
def isEmptyOnly : Pattern PatternStep → Bool
  | empty => true
  | step (.char _) => false
  | step (.look _) => true
  | both a b | either a b => a.isEmptyOnly && b.isEmptyOnly
  | repeated _ most a => most == some 0 || a.isEmptyOnly

end Pattern

end SearchScript
