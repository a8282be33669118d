import SearchScript.Unicode.Category
import SearchScript.Unicode.Folding
import SearchScript.Unicode.Property
import SearchScript.Unicode.Script

/-!
# Sets of characters

The sets that patterns are made of: ranges and properties of code points, and what the operations on
sets make of them. `CharSet.contains` says which characters a set has.
-/

namespace SearchScript

open Unicode

/-- Sets of characters. -/
inductive CharSet where
  | ranges (ranges : Ranges)
  /-- The characters of some general categories. -/
  | categories (categories : List Category)
  /-- The characters that belong to a script. -/
  | script (code : String)
  /-- The characters that are used in a script. -/
  | usedIn (code : String)
  | union (a b : CharSet)
  | inter (a b : CharSet)
  | diff (a b : CharSet)
  | symmDiff (a b : CharSet)
  | compl (a : CharSet)
  /-- All characters that differ in case only from one in the set. -/
  | ignoringCase (a : CharSet)
  /-- The same for the letters of ASCII only. -/
  | ignoringAsciiCase (a : CharSet)

namespace CharSet

/-- The letter of ASCII that differs from a code point in case only. -/
def swapAsciiCase (n : Nat) : Nat :=
  if 0x41 ≤ n ∧ n ≤ 0x5A then n + 0x20 else if 0x61 ≤ n ∧ n ≤ 0x7A then n - 0x20 else n

/-- Whether the set has the character with a code point. -/
def containsCode : CharSet → Nat → Bool
  | ranges rs, n => rs.contains n
  | categories cs, n => cs.contains (Category.ofCodePoint n)
  | script code, n => Script.ofCodePoint n == code
  | usedIn code, n => (Script.usedIn n).contains code
  | union a b, n => a.containsCode n || b.containsCode n
  | inter a b, n => a.containsCode n && b.containsCode n
  | diff a b, n => a.containsCode n && !b.containsCode n
  | symmDiff a b, n => a.containsCode n != b.containsCode n
  | compl a, n => !a.containsCode n
  | ignoringCase a, n => a.containsCode n || (caseVariants n).any a.containsCode
  | ignoringAsciiCase a, n => a.containsCode n || a.containsCode (swapAsciiCase n)

/-- Whether the set has a character. -/
def contains (s : CharSet) (c : Char) : Bool := s.containsCode c.toNat

/-- How often neighbours begin to have something: the number of stretches in which all have it. -/
def stretches : (before : Bool) → List Bool → Nat
  | _, [] => 0
  | before, now :: rest => (if now && !before then 1 else 0) + stretches now rest

/-- About how many ranges the set is made of. -/
def rangeCount : CharSet → Nat
  | ranges rs => rs.length
  | categories cs =>
    stretches false (Category.runs.map fun run => run.values.any cs.contains)
  | script code | usedIn code =>
    stretches false (Script.runs.map fun run => run.values.contains code)
  | union a b | inter a b | diff a b | symmDiff a b => a.rangeCount + b.rangeCount
  | compl a => a.rangeCount + 1
  | ignoringCase a | ignoringAsciiCase a => a.rangeCount

/-! ## Particular sets -/

/-- The set without characters. -/
def empty : CharSet := ranges []

/-- The set of one character. -/
def single (c : Char) : CharSet := ranges [(c.toNat, c.toNat)]

/-- All characters of ASCII. -/
def ascii : CharSet := ranges [(0, 0x7F)]

/-- All characters. -/
def all : CharSet := ranges [(0, 0x10FFFF)]

/-- The property Lowercase. -/
def lowercase : CharSet := union (categories [.lowercaseLetter]) (ranges Property.otherLowercase)

/-- The property Uppercase. -/
def uppercase : CharSet := union (categories [.uppercaseLetter]) (ranges Property.otherUppercase)

/-- The categories of letters. -/
def letterCategories : List Category :=
  [.uppercaseLetter, .lowercaseLetter, .titlecaseLetter, .modifierLetter, .otherLetter]

/-- The categories of marks. -/
def markCategories : List Category := [.nonspacingMark, .spacingMark, .enclosingMark]

/-- The code points that are alphabetic though they are no letters. -/
def otherAlphabetic : CharSet :=
  union (ranges Property.otherAlphabetic)
    (union (ranges Property.otherLowercase) (ranges Property.otherUppercase))

/-- The property Alphabetic. -/
def alphabetic : CharSet := union (categories (.letterNumber :: letterCategories)) otherAlphabetic

/-- The characters that are alphabetic or numeric. -/
def alphanumeric : CharSet :=
  union (categories ([.decimalNumber, .letterNumber, .otherNumber] ++ letterCategories))
    otherAlphabetic

/-- The characters of words: what is alphabetic, marks, decimal digits, what connects words, and
what joins letters. -/
def word : CharSet :=
  union
    (categories
      ([.letterNumber, .decimalNumber, .connectorPunctuation] ++ letterCategories ++
        markCategories))
    (union otherAlphabetic (ranges Property.joinControl))

/-- Decimal digits. -/
def digit : CharSet := categories [.decimalNumber]

/-- Blanks. -/
def blank : CharSet := ranges Property.whiteSpace

/-- The characters of words in ASCII. -/
def asciiWord : CharSet := ranges [(0x30, 0x39), (0x41, 0x5A), (0x5F, 0x5F), (0x61, 0x7A)]

/-- The digits of ASCII. -/
def asciiDigit : CharSet := ranges [(0x30, 0x39)]

/-- The blanks of ASCII. -/
def asciiBlank : CharSet := ranges [(0x09, 0x0D), (0x20, 0x20)]

/-- The classes of ASCII characters that have names. -/
def asciiClasses : List (String × CharSet) :=
  [("alnum", ranges [(0x30, 0x39), (0x41, 0x5A), (0x61, 0x7A)]),
    ("alpha", ranges [(0x41, 0x5A), (0x61, 0x7A)]),
    ("ascii", ascii),
    ("blank", ranges [(0x09, 0x09), (0x20, 0x20)]),
    ("cntrl", ranges [(0x00, 0x1F), (0x7F, 0x7F)]),
    ("digit", asciiDigit),
    ("graph", ranges [(0x21, 0x7E)]),
    ("lower", ranges [(0x61, 0x7A)]),
    ("print", ranges [(0x20, 0x7E)]),
    ("punct", ranges [(0x21, 0x2F), (0x3A, 0x40), (0x5B, 0x60), (0x7B, 0x7E)]),
    ("space", asciiBlank),
    ("upper", ranges [(0x41, 0x5A)]),
    ("word", asciiWord),
    ("xdigit", ranges [(0x30, 0x39), (0x41, 0x46), (0x61, 0x66)])]

end CharSet

end SearchScript
