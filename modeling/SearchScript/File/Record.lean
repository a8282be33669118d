import SearchScript.Json.Basic

/-!
# File records

What is known about a file: its identity, size and media properties, the addresses it came from, the
tags that each tag service holds for it and the ratings that each rating service gives it. Records
are only read.
-/

namespace SearchScript

/-- The tags of one service, by content status. -/
structure ServiceTags where
  storage : Table (List String) := []
  display : Table (List String) := []
deriving DecidableEq, Inhabited

/-- A file record. The duration is in milliseconds. The entries of `tags` and `ratings` keep the
order of the document and may repeat a service. -/
structure FileRecord where
  id : Nat := 0
  hash : String := ""
  size : Option Nat := none
  mime : Option String := none
  width : Option Nat := none
  height : Option Nat := none
  duration : Option Number := none
  urls : List String := []
  tags : List (String × ServiceTags) := []
  ratings : List (String × Json) := []
deriving Inhabited

namespace FileRecord

/-- The content status of tags that apply now. -/
def currentStatus : String := "0"

/-- A record with every property filled in, for completion without real files. -/
def placeholder : FileRecord where
  size := some 0
  mime := some ""
  width := some 0
  height := some 0
  duration := some (Number.ofNat 0)
  urls := [""]
  tags := [("", ⟨[(currentStatus, [""])], [(currentStatus, [""])]⟩)]
  ratings := [("", .number (.natural 1))]

/-- A list without the items that occurred before. -/
def withoutRepeats (items : List String) : List String :=
  (items.foldl (fun kept item => if kept.contains item then kept else item :: kept) []).reverse

/-- The current display tags of all services, each once. -/
def currentTags (file : FileRecord) : List String :=
  withoutRepeats <| file.tags.flatMap fun (_, service) =>
    (service.display.find? currentStatus).getD []

/-- The first rating that is a number. -/
def numericRating? (file : FileRecord) : Option Number :=
  file.ratings.findSome? fun
    | (_, .number n) => some n.toNumber
    | _ => none

/-- Whether a service rates the file as liked, or as disliked. -/
def hasRating (file : FileRecord) (liked : Bool) : Bool :=
  file.ratings.any fun
    | (_, .bool b) => b == liked
    | _ => false

end FileRecord

/-- The files that a program can look up. -/
abbrev FileStore := List FileRecord

namespace FileStore

/-- The first file with an identifier. -/
def findById? (files : FileStore) (id : Nat) : Option FileRecord := files.find? (·.id == id)

/-- The first file with a hash. -/
def findByHash? (files : FileStore) (hash : String) : Option FileRecord :=
  files.find? (·.hash == hash)

end FileStore

/-! ## Equality

Two records are the same when all their properties are; the zeros are the same duration. -/

/-- Whether two numbers of documents are the same. A whole number is not the same as a double. -/
def JsonNumber.same : JsonNumber → JsonNumber → Bool
  | natural a, natural b => a == b
  | negative a, negative b => a == b
  | double a, double b => a.equal b
  | _, _ => false

mutual

/-- Whether two documents are the same. -/
def Json.same : Json → Json → Bool
  | .null, .null => true
  | .bool a, .bool b => a == b
  | .number a, .number b => a.same b
  | .string a, .string b => a == b
  | .array a, .array b => Json.sameItems a b
  | .object a, .object b => Json.sameMembers a b
  | _, _ => false

/-- Whether two arrays have the same items. -/
def Json.sameItems : List Json → List Json → Bool
  | [], [] => true
  | a :: as, b :: bs => a.same b && Json.sameItems as bs
  | _, _ => false

/-- Whether two objects have the same members in the same order. -/
def Json.sameMembers : List (String × Json) → List (String × Json) → Bool
  | [], [] => true
  | (m, a) :: as, (n, b) :: bs => m == n && a.same b && Json.sameMembers as bs
  | _, _ => false

end

/-- Whether two records are the same. -/
def FileRecord.same (a b : FileRecord) : Bool :=
  a.id == b.id && a.hash == b.hash && a.size == b.size && a.mime == b.mime
    && a.width == b.width && a.height == b.height
    && (match a.duration, b.duration with
      | none, none => true
      | some x, some y => x.equal y
      | _, _ => false)
    && a.urls == b.urls && decide (a.tags = b.tags) && Json.sameMembers a.ratings b.ratings

end SearchScript
