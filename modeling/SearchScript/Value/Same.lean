import SearchScript.Value.Basic

/-!
# Equality of values

Data is the same when it has the same structure, NaN included. Functions and cells are the same when
they are identical, types when they have the same name.
-/

namespace SearchScript.Value

/-- Whether two numbers are the same: numerically equal, or both NaN. -/
def sameNumber (a b : Number) : Bool := a.equal b || (a.isNaN && b.isNaN)

mutual

/-- Whether two values are the same. -/
def same : Value → Value → Bool
  | boolean a, boolean b => a == b
  | number a, number b => sameNumber a b
  | string a, string b => a == b
  | null, null => true
  | list a, list b => sameItems a b
  | stringList m a, stringList n b => m == n && a == b
  | file a, file b => a.same b
  | function a _, function b _ => a == b
  | constructor a, constructor b => a == b
  | fileConstructor _, fileConstructor _ => true
  | cell a, cell b => a == b
  | _, _ => false

/-- Whether two lists have the same items. -/
def sameItems : List Value → List Value → Bool
  | [], [] => true
  | a :: as, b :: bs => same a b && sameItems as bs
  | _, _ => false

end

end SearchScript.Value
