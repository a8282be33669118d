import SearchScript.File.Record
import SearchScript.Json.Reader
import SearchScript.Json.Writer

/-!
# File records in documents

Records are loaded from a document and written into one. A document of records is an array of them,
or an object whose member `metadata` is such an array. A record is an object, or an array of its
properties in order; properties that are missing have their default, unknown ones are ignored, and
no known one may be repeated.
-/

namespace SearchScript

/-- Why a text is no document of file records. -/
inductive LoadFault where
  /-- The text ends early. -/
  | endOfText
  /-- The text is no document, or something follows it. -/
  | malformed
  /-- The document does not describe files. -/
  | shape
deriving DecidableEq, Repr

/-- What the fault says. -/
def LoadFault.message : LoadFault → String
  | endOfText => "EOF while parsing a value"
  | malformed => "expected a value"
  | shape => "data did not match any variant of untagged enum Document"

namespace FileRecord

/-! ## Reading -/

/-- A natural number. -/
def readNatural? : Json → Option Nat
  | .number (.natural n) => some n
  | _ => none

/-- A number of any form. -/
def readNumber? : Json → Option Number
  | .number n => some n.toNumber
  | _ => none

/-- A value that may be absent. -/
def readOptional? {α : Type} (read? : Json → Option α) : Json → Option (Option α)
  | .null => some none
  | json => (read? json).map some

/-- An array of texts. -/
def readTexts? : Json → Option (List String)
  | .array items => items.mapM Json.text?
  | _ => none

/-- The members of an object, with their values read. -/
def readMembers? {α : Type} (read? : Json → Option α) : Json → Option (List (String × α))
  | .object members => members.mapM fun (name, value) => (read? value).map (name, ·)
  | _ => none

/-- Tags by content status. -/
def readStatusTags? (json : Json) : Option (Table (List String)) :=
  (readMembers? readTexts? json).map Table.ofEntries

/-- The value of a property that is described by name; `some none` if it is missing. -/
def property? (members : List (String × Json)) (name : String) : Option (Option Json) :=
  match members.filter (·.1 == name) with
  | [] => some none
  | [(_, value)] => some (some value)
  | _ => none

/-- The values of the named properties of something described by an object or by an array. -/
def properties? (names : List String) : Json → Option (List (Option Json))
  | .object members => names.mapM (property? members)
  | .array items =>
    if names.length < items.length then none
    else some (items.map some ++ List.replicate (names.length - items.length) none)
  | _ => none

/-- A property with a default. -/
def readProperty? {α : Type} (read? : Json → Option α) (default : α) : Option Json → Option α
  | none => some default
  | some json => read? json

/-- The tags of a service. -/
def readService? (json : Json) : Option ServiceTags := do
  match ← properties? ["storage_tags", "display_tags"] json with
  | [storage, display] =>
    let storage ← readProperty? readStatusTags? [] storage
    let display ← readProperty? readStatusTags? [] display
    some { storage, display }
  | _ => none

/-- The names of the properties of a record, in order. -/
def propertyNames : List String :=
  ["file_id", "hash", "size", "mime", "width", "height", "duration", "known_urls", "tags",
    "ratings"]

/-- A record. -/
def read? (json : Json) : Option FileRecord := do
  match ← properties? propertyNames json with
  | [id, hash, size, mime, width, height, duration, urls, tags, ratings] =>
    let id ← readProperty? readNatural? 0 id
    let hash ← readProperty? Json.text? "" hash
    let size ← readProperty? (readOptional? readNatural?) none size
    let mime ← readProperty? (readOptional? Json.text?) none mime
    let width ← readProperty? (readOptional? readNatural?) none width
    let height ← readProperty? (readOptional? readNatural?) none height
    let duration ← readProperty? (readOptional? readNumber?) none duration
    let urls ← readProperty? readTexts? [] urls
    let tags ← readProperty? (readMembers? readService?) [] tags
    let ratings ← readProperty? (readMembers? fun json => some json.canonical) [] ratings
    some { id, hash, size, mime, width, height, duration, urls, tags, ratings }
  | _ => none

/-! ## Writing -/

/-- An optional value, or null. -/
def writeOptional {α : Type} (write : α → Json) : Option α → Json
  | none => .null
  | some value => write value

/-- Texts as an array. -/
def writeTexts (texts : List String) : Json := .array (texts.map .string)

/-- Tags by content status. -/
def writeStatusTags (tags : Table (List String)) : Json :=
  .object (tags.map fun (status, texts) => (status, writeTexts texts))

/-- The tags of a service. -/
def writeService (service : ServiceTags) : Json :=
  .object [("storage_tags", writeStatusTags service.storage),
    ("display_tags", writeStatusTags service.display)]

/-- A natural number. -/
def writeNatural (n : Nat) : Json := .number (.natural n)

/-- The record as an object with all its properties in order. -/
def toJson (file : FileRecord) : Json :=
  .object
    [("file_id", writeNatural file.id),
      ("hash", .string file.hash),
      ("size", writeOptional writeNatural file.size),
      ("mime", writeOptional .string file.mime),
      ("width", writeOptional writeNatural file.width),
      ("height", writeOptional writeNatural file.height),
      ("duration", writeOptional (fun x => .number (.double x)) file.duration),
      ("known_urls", writeTexts file.urls),
      ("tags", .object (file.tags.map fun (key, service) => (key, writeService service))),
      ("ratings", .object file.ratings)]

end FileRecord

namespace FileStore

/-- The records that a document describes. -/
def read? : Json → Option FileStore
  | .array items => items.mapM FileRecord.read?
  | .object members => do
    match ← FileRecord.property? members "metadata" with
    | some (.array items) => items.mapM FileRecord.read?
    | _ => none
  | _ => none

/-- Loads records from a text. A document of the wrong shape is reported before anything that
follows the document. -/
def load (text : String) : Except LoadFault FileStore :=
  let fault : JsonFault → LoadFault
    | .endOfText => .endOfText
    | .malformed => .malformed
  match Json.readFront text with
  | .error e => .error (fault e)
  | .ok (json, rest) =>
    match read? json with
    | none => .error .shape
    | some files =>
      match Json.readEnd rest with
      | .ok () => .ok files
      | .error e => .error (fault e)

/-- The records as a document. -/
def toJson (files : FileStore) : Json := .array (files.map FileRecord.toJson)

end FileStore

end SearchScript
