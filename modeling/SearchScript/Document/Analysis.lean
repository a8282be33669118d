import SearchScript.Document.Position
import SearchScript.Query

/-!
# What an editor shows for a document

A document holds one expression or a script; it is read as an expression first. The diagnostics come
from a strict reading, the completions from a tolerant one against a placeholder file.
-/

namespace SearchScript

/-- Something wrong with a document. All of them are errors. -/
structure Diagnostic where
  range : Range
  message : String
deriving DecidableEq, Repr

namespace Diagnostic

/-- The code of an error among the severities that editors know. -/
def severity : Nat := 1

/-- What diagnostics name as their source. -/
def source : String := "hydrui-script"

/-- The diagnostic of an error in a text. -/
def ofError (text : String) (error : ParseError) : Diagnostic :=
  ⟨.ofSpan text error.span, error.message⟩

end Diagnostic

/-- A completion that an editor offers: a name, its rank, and the characters that it replaces. -/
structure CompletionItem where
  label : String
  rank : Nat
  range : Range
deriving DecidableEq, Repr

namespace CompletionItem

/-- The code of a variable among the kinds of completions that editors know. -/
def kind : Nat := 6

/-- The text by which editors order the completions: the rank with at least four digits. -/
def sortText (item : CompletionItem) : String :=
  let digits := Nat.toDigits 10 item.rank
  String.ofList (List.replicate (4 - digits.length) '0' ++ digits)

/-- The completions in a text, in the order in which they are offered. -/
def ofSuggestions (text : String) (found : Suggestions) : List CompletionItem :=
  found.names.zipIdx.map fun (name, rank) => ⟨name, rank, .ofSpan text found.span⟩

end CompletionItem

namespace Document

/-- Reads a document as an expression, or else as a script. If it is neither, the error that lies
further behind counts, of two at one place that of the script. -/
def parse (mode : ParseMode) (text : String) : Except ParseError Code :=
  match Expr.parse mode text with
  | .ok e => .ok (.expression e)
  | .error asExpression =>
    match Statement.parseScript mode text with
    | .ok script => .ok (.statement script)
    | .error asScript =>
      .error (if asExpression.span.start ≤ asScript.span.start then asScript else asExpression)

/-- What is wrong with a document. -/
def diagnostics (text : String) : List Diagnostic :=
  match parse .strict text with
  | .ok _ => []
  | .error error => [.ofError text error]

/-- The completions at a byte offset of a document; there are none where the document cannot be read
or run. The outer option is empty if the run takes more than `fuel` nested steps. -/
def suggestions (fuel : Nat) (text : String) (offset : Nat) : Option (Option Suggestions) :=
  match parse .tolerant text with
  | .error _ => some none
  | .ok code =>
    let (env, st) := ({} : Store).newHost Query.placeholderHost
    match code.complete fuel env offset st with
    | none => none
    | some (.ok found, _) => some found
    | some (.error _, _) => some none

/-- The completions at a place of a document. -/
def completions (fuel : Nat) (text : String) (place : Position) : Option (List CompletionItem) :=
  match place.toOffset? text with
  | none => some []
  | some offset =>
    (suggestions fuel text offset).map fun found =>
      (found.map (CompletionItem.ofSuggestions text)).getD []

end Document

end SearchScript
