import SearchScript.Run.Program

/-!
# Filtering and sorting files

A search runs one expression for each file, with the name `file` bound to it. As a filter it must
come to a Boolean, as a sort key to a number or a text.
-/

namespace SearchScript

namespace Query

/-- The name of the file that an expression is about. -/
def fileName : String := "file"

/-- A host with a file bound. -/
def fileHost (file : FileRecord) (files : Option FileStore) : Host where
  globals := [(fileName, .file file)]
  files := files

/-- The host that completion works against: the file is a placeholder. -/
def placeholderHost : Host := fileHost .placeholder none

/-- The value of an expression for one file. -/
def evaluateFor (fuel : Nat) (e : Expr) (files : Option FileStore) (file : FileRecord) :
    Option (Except RunError Value) :=
  let (env, st) := ({} : Store).newHost (fileHost file files)
  (Code.evaluate fuel env (.expression e) st).map (·.1)

/-- The Boolean that a filter must come to. -/
def filterAnswer (v : Value) : Except RunError Bool := liftValue v.requireBoolean

/-- The files for which an expression is true. -/
def filterWith (fuel : Nat) (e : Expr) (files : Option FileStore) :
    List FileRecord → Option (Except RunError (List FileRecord))
  | [] => some (.ok [])
  | file :: rest =>
    match evaluateFor fuel e files file with
    | none => none
    | some result =>
      match result.bind filterAnswer with
      | .error error => some (.error error)
      | .ok keep =>
        match filterWith fuel e files rest with
        | some (.ok kept) => some (.ok (if keep then file :: kept else kept))
        | other => other

/-- What files are sorted by. -/
inductive SortKey where
  | number (n : Number)
  | string (s : String)
deriving DecidableEq

namespace SortKey

/-- The sort key that a value is. -/
def ofValue : Value → Except RunError SortKey
  | .number n => .ok (.number n)
  | .string s => .ok (.string s)
  | other => .error (.sortKey other.type)

/-- Whether a key must stand in front of another one: numbers in order, then texts in order. NaN is
in no order with any number. -/
def before : SortKey → SortKey → Bool
  | number a, number b => a.less b
  | string a, string b => decide (a < b)
  | number _, string _ => true
  | string _, number _ => false

end SortKey

/-- The files with their sort keys. -/
def keys (fuel : Nat) (e : Expr) (files : Option FileStore) :
    List FileRecord → Option (Except RunError (List (SortKey × FileRecord)))
  | [] => some (.ok [])
  | file :: rest =>
    match evaluateFor fuel e files file with
    | none => none
    | some result =>
      match result.bind SortKey.ofValue with
      | .error error => some (.error error)
      | .ok key =>
        match keys fuel e files rest with
        | some (.ok keyed) => some (.ok ((key, file) :: keyed))
        | other => other

/-- Puts an entry behind the entries already placed, the last of which comes first in the list; it
moves in front of those whose keys it must stand before, until it meets one that it need not. -/
def place (entry : SortKey × FileRecord) :
    List (SortKey × FileRecord) → List (SortKey × FileRecord)
  | [] => [entry]
  | last :: rest =>
    if entry.1.before last.1 then last :: place entry rest else entry :: last :: rest

/-- Files in the order of their keys; files with equal keys keep their order. -/
def sortKeyed (keyed : List (SortKey × FileRecord)) : List FileRecord :=
  ((keyed.foldl (fun placed entry => place entry placed) []).reverse).map (·.2)

/-- Keeps the files for which the expression in a text is true. -/
def filter (fuel : Nat) (source : String) (records : List FileRecord)
    (files : Option FileStore) : Option (Except RunError (List FileRecord)) :=
  match Expr.parse .strict source with
  | .error error => some (.error (.parse error))
  | .ok e => filterWith fuel e files records

/-- Sorts files by the expression in a text. -/
def sort (fuel : Nat) (source : String) (records : List FileRecord)
    (files : Option FileStore) : Option (Except RunError (List FileRecord)) :=
  match Expr.parse .strict source with
  | .error error => some (.error (.parse error))
  | .ok e =>
    match keys fuel e files records with
    | some (.ok keyed) => some (.ok (sortKeyed keyed))
    | some (.error error) => some (.error error)
    | none => none

end Query

end SearchScript
