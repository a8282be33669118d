import SearchScript.Value.Error
import SearchScript.Number.Reading

/-!
# Reading data out of values

A value is *required* to be of a type, and anything else is a mismatch; or it is *converted* among
Boolean, Number and String. The functions take a value that is no cell.
-/

namespace SearchScript.Value

/-- The Boolean that a value must be. -/
def requireBoolean : Value → Except ValueError Bool
  | boolean b => .ok b
  | other => .error (.typeMismatch .boolean other.type)

/-- The number that a value must be. -/
def requireNumber : Value → Except ValueError Number
  | number n => .ok n
  | other => .error (.typeMismatch .number other.type)

/-- The text that a value must be. -/
def requireString : Value → Except ValueError String
  | string s => .ok s
  | other => .error (.typeMismatch .string other.type)

/-- The file that a value must be. -/
def requireFile : Value → Except ValueError FileRecord
  | file f => .ok f
  | other => .error (.typeMismatch .file other.type)

/-- The function that a value must be. -/
def requireFunction : Value → Except ValueError Callable
  | function _ f => .ok f
  | other => .error (.typeMismatch .function other.type)

/-- Whether a number counts as true: it is neither zero nor NaN. -/
def isTruthy (n : Number) : Bool := !n.isZero && !n.isNaN

/-- The truth value of data. -/
def toBoolean : Value → Except ValueError Bool
  | boolean b => .ok b
  | number n => .ok (isTruthy n)
  | string s => .ok (!s.isEmpty)
  | other => .error (.invalidConversion other.type .boolean)

/-- The number that data stands for. -/
def toNumber : Value → Except ValueError Number
  | number n => .ok n
  | boolean b => .ok (if b then 1 else 0)
  | string s => .ok (Number.read s)
  | other => .error (.invalidConversion other.type .number)

/-- The text of data. -/
def toText : Value → Except ValueError String
  | string s => .ok s
  | number n => .ok n.format
  | boolean b => .ok (if b then "true" else "false")
  | other => .error (.invalidConversion other.type .string)

end SearchScript.Value
