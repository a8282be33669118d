import SearchScript.CommandLine.Help
import SearchScript.Document.Position
import SearchScript.Json.Writer
import SearchScript.Query
import SearchScript.Run.Rendering
import SearchScript.Syntax.Outline
import SearchScript.Syntax.Printer

/-!
# What the commands do

A command works on the text of its source and on the files that it reads, and prints a text or
fails. The source is read first, then the files, and only then is the source looked at.
-/

namespace SearchScript.CommandLine

/-- Why a file or the standard input could not be read. -/
inductive ReadFault where
  | notFound
  | permissionDenied
  | isDirectory
  /-- The bytes are no UTF-8 text. -/
  | notText
  | other (message : String)
deriving DecidableEq, Repr

/-- What the fault says. -/
def ReadFault.message : ReadFault → String
  | notFound => "No such file or directory (os error 2)"
  | permissionDenied => "Permission denied (os error 13)"
  | isDirectory => "Is a directory (os error 21)"
  | notText => "stream did not contain valid UTF-8"
  | other message => message

/-- Why a command failed. -/
inductive Failure where
  | file (path : String) (fault : ReadFault)
  | input (fault : ReadFault)
  /-- A file does not describe file records. -/
  | records (path : String) (fault : LoadFault)
  | run (error : RunError)
deriving DecidableEq

/-- What the failure says. -/
def Failure.message : Failure → String
  | file path fault => "Error reading '" ++ path ++ "': " ++ fault.message
  | input fault => "Error reading standard input: " ++ fault.message
  | records path fault => "Invalid file metadata in '" ++ path ++ "': " ++ fault.message
  | run error => error.message

/-- What a command can read: the standard input and files. -/
structure Readable where
  input : Except ReadFault String
  file : String → Except ReadFault String

namespace Readable

/-- The text of a source. -/
def source (readable : Readable) : Source → Except Failure String
  | .text text => .ok text
  | .file path => (readable.file path).mapError (.file path)
  | .input => readable.input.mapError .input

/-- The file records in a file. -/
def records (readable : Readable) (path : String) : Except Failure FileStore := do
  let text ← (readable.file path).mapError (.file path)
  (FileStore.load text).mapError (.records path)

/-- The host of a program. -/
def host (readable : Readable) (surroundings : Surroundings) : Except Failure Host := do
  let globals := Table.ofEntries <|
    surroundings.bindings.map fun (name, json) => (name, Value.ofJson json)
  match surroundings.files with
  | none => .ok { globals := globals }
  | some path => (readable.records path).map fun files =>
    { globals := globals, files := some files }

end Readable

/-! ## What is printed -/

/-- The document of a token. -/
def tokenJson (token : Token) : Json :=
  .object
    [("end", .number (.natural token.span.stop)),
      ("kind", .string token.kind.name),
      ("start", .number (.natural token.span.start)),
      ("text", .string token.text)]

/-- The document of completions. -/
def suggestionsJson (found : Suggestions) : Json :=
  .object
    [("identifiers", .array (found.names.map .string)),
      ("replace_span", .object
        [("end", .number (.natural found.span.stop)),
          ("start", .number (.natural found.span.start))])]

/-- The document of file records. -/
def recordsJson (records : List FileRecord) : Json :=
  .array (records.map fun record => record.toJson.canonical)

namespace Command

/-- What a tolerant or strict reading of a source is written as. -/
def parseText (source : String) (isScript tolerant asTree : Bool) : Except ParseError String :=
  let mode : ParseMode := if tolerant then .tolerant else .strict
  if isScript then
    (Statement.parseScript mode source).map fun s => if asTree then s.outline else s.scriptSource
  else
    (Expr.parse mode source).map fun e => if asTree then e.outline else e.source

/-- The answer of an evaluation. -/
def evaluate (fuel : Nat) (host : Host) (code : Code) : Option (Except Failure Json) :=
  let (env, st) := ({} : Store).newHost host
  match code.evaluate fuel env st with
  | none => none
  | some (.ok v, st) => some (.ok (st.toJson fuel v))
  | some (.error error, _) => some (.error (.run error))

/-- The answer of a completion. -/
def complete (fuel : Nat) (host : Host) (code : Code) (offset : Nat) :
    Option (Except Failure Json) :=
  let (env, st) := ({} : Store).newHost host
  match code.complete fuel env offset st with
  | none => none
  | some (.ok found, _) => some (.ok ((found.map suggestionsJson).getD .null))
  | some (.error error, _) => some (.error (.run error))

/-- The source, the host and the program of a command. -/
def prepare (readable : Readable) (mode : ParseMode) (source : Source) (isScript : Bool)
    (surroundings : Surroundings) : Except Failure (String × Host × Code) := do
  let text ← readable.source source
  let host ← readable.host surroundings
  let code ← (Code.parse mode isScript text).mapError (.run ∘ .parse)
  .ok (text, host, code)

/-- What a search prints. -/
def search (readable : Readable) (path : String)
    (query : FileStore → Option (Except RunError (List FileRecord))) :
    Option (Except Failure String) :=
  match readable.records path with
  | .error failure => some (.error failure)
  | .ok files =>
    (query files).map fun result =>
      (result.mapError .run).map fun records => (recordsJson records).pretty

/-- What a command prints. There is no result if it takes more than `fuel` nested steps. -/
def perform (fuel : Nat) (readable : Readable) : Command → Option (Except Failure String)
  | .tokens source => some do
    let text ← readable.source source
    let tokens ← (Token.scan text).mapError (.run ∘ .parse ∘ .scan)
    .ok (Json.array (tokens.map tokenJson)).pretty
  | .parse source isScript tolerant asTree => some do
    let text ← readable.source source
    (parseText text isScript tolerant asTree).mapError (.run ∘ .parse)
  | .eval source isScript surroundings =>
    match prepare readable .strict source isScript surroundings with
    | .error failure => some (.error failure)
    | .ok (_, host, code) => (evaluate fuel host code).map (·.map Json.pretty)
  | .suggest source isScript surroundings offset =>
    match prepare readable .tolerant source isScript surroundings with
    | .error failure => some (.error failure)
    | .ok (text, host, code) =>
      (complete fuel host code (offset.getD text.utf8ByteSize)).map (·.map Json.pretty)
  | .filter expression path => search readable path fun files =>
    Query.filter fuel expression files (some files)
  | .sort expression path => search readable path fun files =>
    Query.sort fuel expression files (some files)

/-- The names of the files that a command reads. -/
def paths : Command → List String
  | .tokens source | .parse source _ _ _ => ofSource source
  | .eval source _ surroundings | .suggest source _ surroundings _ =>
    ofSource source ++ surroundings.files.toList
  | .filter _ path | .sort _ path => [path]
where
  /-- The name of the source file. -/
  ofSource : Source → List String
    | .file path => [path]
    | _ => []

/-- Whether a command reads the standard input. -/
def readsInput : Command → Bool
  | .tokens source | .parse source _ _ _ | .eval source _ _ | .suggest source _ _ _ =>
    source == .input
  | .filter _ _ | .sort _ _ => false

end Command

/-! ## The end of the program -/

/-- The exit status of the program and what it writes. -/
structure Report where
  status : Nat
  output : String := ""
  errors : String := ""
deriving DecidableEq, Repr

namespace Report

/-- The report of what a command printed. -/
def ofResult : Except Failure String → Report
  | .ok text => { status := 0, output := text ++ "\n" }
  | .error failure => { status := 1, errors := "Error: " ++ failure.message ++ "\n" }

/-- The report of arguments that cannot be used. -/
def ofUsageError (error : UsageError) : Report :=
  { status := 2, errors := "error: " ++ error.message ++ "\n" }

/-- The report of a request. There is none if the command takes more than `fuel` nested steps. -/
def ofRequest (fuel : Nat) (readable : Readable) : Request → Option Report
  | .run command => (command.perform fuel readable).map ofResult
  | request => some { status := 0, output := request.about?.getD "" }

end Report

end SearchScript.CommandLine
