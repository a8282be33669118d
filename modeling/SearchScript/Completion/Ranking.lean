import SearchScript.Span
import SearchScript.Text.Blank
import SearchScript.Text.Search

/-!
# Completions and their order

The names offered at a place in a program, and the span that a chosen one replaces. Names that start
with what was typed come first, then those that contain it elsewhere.
-/

namespace SearchScript

/-- The names offered, best first, and the span that they replace. -/
structure Suggestions where
  names : List String
  span : Span
deriving DecidableEq, Repr

/-- The choices that contain what was typed, those that start with it first. Blanks around what was
typed do not count, and nothing typed keeps every choice. -/
def rankChoices (typed : String) (choices : List String) : List String :=
  let needle := Text.trimBlanks typed.toList
  if needle.isEmpty then choices
  else
    let found := choices.filter fun choice => Text.occursIn needle choice.toList
    found.filter (fun choice => needle.isPrefixOf choice.toList) ++
      found.filter (fun choice => !needle.isPrefixOf choice.toList)

end SearchScript
