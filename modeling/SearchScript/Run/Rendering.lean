import SearchScript.Run.Store
import SearchScript.File.Document

/-!
# Values for the outside

The document that a value is written as, and the text that shows it to a developer. Both look
through cells; lists that are nested deeper than the given depth are cut off.
-/

namespace SearchScript.Store

/-- The document of a number; what is not finite is null. -/
def numberJson : Number → Json
  | .finite negative units fits => .number (.double (.finite negative units fits))
  | _ => .null

/-- The document of a value, with the members of objects sorted. What has no data is null. -/
def toJson (st : Store) : (depth : Nat) → Value → Json
  | 0, _ => .null
  | depth + 1, v =>
    match st.snapshot v with
    | .boolean b => .bool b
    | .number n => numberJson n
    | .string s => .string s
    | .list items => .array (items.map (toJson st depth))
    | .stringList _ items => .array (items.map .string)
    | .file f => f.toJson.canonical
    | _ => .null

/-- How a character is shown inside quotes. -/
def showChar (c : Char) : List Char :=
  if c = '"' then ['\\', '"']
  else if c = '\\' then ['\\', '\\']
  else if c = '\n' then ['\\', 'n']
  else if c = '\r' then ['\\', 'r']
  else if c = '\t' then ['\\', 't']
  else if c = '\x00' then ['\\', '0']
  else if c.toNat < 0x20 ∨ c.toNat = 0x7F then
    '\\' :: 'u' :: '\x7b' :: Nat.toDigits 16 c.toNat ++ ['\x7d']
  else [c]

/-- A text in quotes, as it is shown to a developer. -/
def showText (s : String) : String :=
  String.ofList ('"' :: s.toList.flatMap showChar ++ ['"'])

/-- Texts in brackets with commas between them. -/
def showList (texts : List String) : String := "[" ++ ", ".intercalate texts ++ "]"

/-- A value as it is shown to a developer. -/
def describe (st : Store) : (depth : Nat) → Value → String
  | 0, _ => ""
  | depth + 1, v =>
    match v with
    | .boolean b => "Boolean(" ++ (if b then "true" else "false") ++ ")"
    | .number n => "Number(" ++ n.format ++ ")"
    | .string s => "String(" ++ showText s ++ ")"
    | .null => "Null"
    | .list items => showList (items.map (describe st depth))
    | .stringList name items =>
      name.type.name ++ "(" ++ showList (items.map showText) ++ ")"
    | .file f => "File(" ++ f.hash ++ ")"
    | .function _ _ => "Function"
    | .constructor type => "Constructor(" ++ type.spelling ++ ")"
    | .fileConstructor _ => "Constructor(File)"
    | .cell slot => "Variable(" ++ describe st depth (st.snapshot (.cell slot)) ++ ")"

end SearchScript.Store
