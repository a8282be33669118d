import SearchScript.Text.Digit

/-!
# Tables of code points

Tables are written in rows of words. A word of a set of code points is one of them or a range,
`61-7A`; a word of a division names the place where a run starts and what the code points of the run
have, `61:Ll`.
-/

namespace SearchScript.Unicode

/-- Puts a character in front of the first word. -/
def pushChar (c : Char) : List (List Char) → List (List Char)
  | [] => [[c]]
  | word :: rest => (c :: word) :: rest

/-- The words of a row, which single blanks separate. -/
def words (row : String) : List (List Char) :=
  row.toList.foldr (fun c found => if c = ' ' then [] :: found else pushChar c found) []

/-- The hexadecimal number at the front of a text, read onto a value, and the rest of the text. -/
def spanHex (value : Nat) : List Char → Nat × List Char
  | [] => (value, [])
  | c :: cs =>
    match radixDigit? 16 c with
    | some d => spanHex (value * 16 + d) cs
    | none => (value, c :: cs)

/-! ## Sets -/

/-- Code points as ranges with both ends, in order. -/
abbrev Ranges := List (Nat × Nat)

namespace Ranges

/-- Whether a code point lies in one of the ranges. -/
def contains (ranges : Ranges) (n : Nat) : Bool :=
  ranges.any fun (low, high) => low ≤ n && n ≤ high

/-- The range that a word stands for. -/
def ofWord (word : List Char) : Nat × Nat :=
  match spanHex 0 word with
  | (low, '-' :: rest) => (low, (spanHex 0 rest).1)
  | (low, _) => (low, low)

/-- The ranges that rows of words stand for. -/
def ofRows (rows : List String) : Ranges := (rows.flatMap words).map ofWord

end Ranges

/-! ## Divisions -/

/-- A run of code points from its start up to the start of the next run. If the run has several
values, its code points have them by turns. -/
structure Run (α : Type) where
  start : Nat
  values : List α

/-- The value of a code point in a division into runs. -/
def valueAt? {α : Type} (n : Nat) : List (Run α) → Option α
  | [] => none
  | [run] => run.values[(n - run.start) % run.values.length]?
  | run :: next :: rest =>
    if n < next.start then run.values[(n - run.start) % run.values.length]?
    else valueAt? n (next :: rest)

/-- The division that rows of words stand for. -/
def runsOfRows {α : Type} (read : List Char → List α) (rows : List String) : List (Run α) :=
  (rows.flatMap words).map fun word =>
    match spanHex 0 word with
    | (start, ':' :: rest) => ⟨start, read rest⟩
    | (start, _) => ⟨start, []⟩

end SearchScript.Unicode
