import SearchScript.Value.Basic
import SearchScript.Value.Error

/-!
# Members

The members of values that are no cells: data, or functions that are made when they are looked up.
`Value.memberNames` lists the members of a value in the order in which they are presented.
-/

namespace SearchScript

/-- What a member is. -/
inductive Member where
  | data (value : Value)
  | function (callable : Callable)

namespace Value

/-- The member of a number. -/
def numberMember? (n : Number) : String → Option Member
  | "string" => some (.data (string n.format))
  | _ => none

/-- The member of a text. -/
def stringMember? (s : String) : String → Option Member
  | "length" => some (.data (ofNat s.length))
  | "padStart" => some (.function (.text s .padStart))
  | "startsWith" => some (.function (.text s .startsWith))
  | "endsWith" => some (.function (.text s .endsWith))
  | "contains" => some (.function (.text s .contains))
  | "substring" => some (.function (.text s .substring))
  | "match" => some (.function (.text s .matchPattern))
  | _ => none

/-- The member of a list. -/
def listMember? (items : List Value) : String → Option Member
  | "length" => some (.data (ofNat items.length))
  | "some" => some (.function (.quantifier .some items))
  | "every" => some (.function (.quantifier .every items))
  | _ => none

/-- The member of a list of strings. -/
def stringListMember? (items : List String) : String → Option Member
  | "contains" => some (.function (.holds items))
  | member => listMember? (items.map string) member

/-- The member of a file. -/
def fileMember? (f : FileRecord) : String → Option Member
  | "id" => some (.data (ofNat f.id))
  | "hash" => some (.data (string f.hash))
  | "size" => some (.data (ofNat (f.size.getD 0)))
  | "width" => some (.data (ofNat (f.width.getD 0)))
  | "height" => some (.data (ofNat (f.height.getD 0)))
  | "duration" => some (.data (number (f.duration.getD 0 / 1000)))
  | "urls" => some (.data (stringList .list f.urls))
  | "tags" => some (.data (stringList .tagsList f.currentTags))
  | "numericRating" => some (.data ((f.numericRating?.map number).getD null))
  | "hasLike" => some (.data (boolean (f.hasRating true)))
  | "hasDislike" => some (.data (boolean (f.hasRating false)))
  | _ => none

/-- The member of a value. -/
def member? (v : Value) (name : String) : Option Member :=
  match v with
  | number n => numberMember? n name
  | string s => stringMember? s name
  | list items => listMember? items name
  | stringList _ items => stringListMember? items name
  | file f => fileMember? f name
  | _ => none

/-- The member of a value, or an error that names the type. -/
def memberOf (v : Value) (name : String) : Except ValueError Member :=
  match v.member? name with
  | some m => .ok m
  | none => .error (.noSuchMember v.type name)

/-- The names of the members of a value. -/
def memberNames : Value → List String
  | number _ => ["string"]
  | string _ =>
    ["length", "padStart", "startsWith", "endsWith", "contains", "substring", "match"]
  | list _ => ["length", "some", "every"]
  | stringList _ _ => ["length", "some", "every", "contains"]
  | file _ =>
    ["id", "hash", "size", "width", "height", "duration", "urls", "tags", "numericRating",
      "hasLike", "hasDislike"]
  | _ => []

end Value

end SearchScript
