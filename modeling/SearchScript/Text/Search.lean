/-!
# Finding texts in texts
-/

namespace SearchScript.Text

/-- Whether a text starts with another one. -/
def startsWith (text front : String) : Bool := front.toList.isPrefixOf text.toList

/-- Whether a text ends with another one. -/
def endsWith (text back : String) : Bool := back.toList.isSuffixOf text.toList

/-- Whether some characters occur in others as a connected stretch. -/
def occursIn (needle : List Char) : List Char → Bool
  | [] => needle.isEmpty
  | c :: cs => needle.isPrefixOf (c :: cs) || occursIn needle cs

/-- Whether a text contains another one. -/
def contains (text needle : String) : Bool := occursIn needle.toList text.toList

end SearchScript.Text
