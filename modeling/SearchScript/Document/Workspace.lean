import SearchScript.Document.Analysis
import SearchScript.Table

/-!
# The documents open in an editor

An editor tells which documents it opens, changes and closes; each time it gets the diagnostics of
the document concerned. Completions are for open documents only.
-/

namespace SearchScript

/-- The texts of the open documents under their addresses. -/
abbrev Workspace := Table String

/-- What an editor tells about a document. -/
inductive Notice where
  /-- A document was opened. -/
  | opened (uri text : String)
  /-- A document was changed: the whole new text. More texts may be given, and only the first of
  them counts. -/
  | changed (uri : String) (texts : List String)
  /-- A document was closed. -/
  | closed (uri : String)
deriving DecidableEq, Repr

/-- The diagnostics of a document as they are published. -/
structure Publication where
  uri : String
  diagnostics : List Diagnostic
deriving DecidableEq, Repr

namespace Workspace

/-- The publication for a text. -/
def publish (uri text : String) : Publication := ⟨uri, Document.diagnostics text⟩

/-- Takes in what an editor tells. A change of a document that is not open leaves it closed, but its
diagnostics are published. -/
def notify (workspace : Workspace) : Notice → Workspace × Option Publication
  | .opened uri text => (workspace.insert uri text, some (publish uri text))
  | .changed _ [] => (workspace, none)
  | .changed uri (text :: _) =>
    (match workspace.find? uri with
      | some _ => workspace.insert uri text
      | none => workspace,
    some (publish uri text))
  | .closed uri => (workspace.erase uri, some ⟨uri, []⟩)

/-- The completions at a place of a document; a document that is not open has none. -/
def complete (fuel : Nat) (workspace : Workspace) (uri : String) (place : Position) :
    Option (List CompletionItem) :=
  match workspace.find? uri with
  | none => some []
  | some text => Document.completions fuel text place

end Workspace

end SearchScript
