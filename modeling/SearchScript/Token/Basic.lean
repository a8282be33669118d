import SearchScript.Span

/-!
# Tokens

A token is a piece of source text with the rule that recognised it. Names and literals keep their
text; every other kind has one spelling.
-/

namespace SearchScript

/-- The kinds of tokens. -/
inductive TokenKind where
  | identifier
  | number
  | string
  | boolean
  | null
  | booleanType
  | numberType
  | stringType
  | letWord
  | returnWord
  | functionWord
  | lambdaWord
  | ifWord
  | elseWord
  | forWord
  | whileWord
  | breakWord
  | continueWord
  | assign
  | addAssign
  | subAssign
  | mulAssign
  | divAssign
  | remAssign
  | andAssign
  | orAssign
  | xorAssign
  | shiftLeftAssign
  | shiftRightAssign
  | andNotAssign
  | plus
  | minus
  | times
  | divide
  | percent
  | ampersand
  | bang
  | bar
  | caret
  | shiftLeft
  | shiftRight
  | andNot
  | logicalAnd
  | logicalOr
  | equal
  | notEqual
  | less
  | lessEqual
  | greater
  | greaterEqual
  | leftParen
  | rightParen
  | leftBracket
  | rightBracket
  | leftBrace
  | rightBrace
  | comma
  | period
  | colon
  | semicolon
  | question
deriving DecidableEq, Repr, Inhabited

namespace TokenKind

/-- How error messages name a kind of token: the spelling of a keyword or operator, the name of the
class for names and literals. -/
def describe : TokenKind → String
  | identifier => "Identifier"
  | number => "Number"
  | string => "String"
  | boolean => "Boolean"
  | null => "Null"
  | booleanType => "Boolean"
  | numberType => "Number"
  | stringType => "String"
  | letWord => "let"
  | returnWord => "return"
  | functionWord => "function"
  | lambdaWord => "lambda"
  | ifWord => "if"
  | elseWord => "else"
  | forWord => "for"
  | whileWord => "while"
  | breakWord => "break"
  | continueWord => "continue"
  | assign => "="
  | addAssign => "+="
  | subAssign => "-="
  | mulAssign => "*="
  | divAssign => "/="
  | remAssign => "%="
  | andAssign => "&="
  | orAssign => "|="
  | xorAssign => "^="
  | shiftLeftAssign => "<<="
  | shiftRightAssign => ">>="
  | andNotAssign => "&^="
  | plus => "+"
  | minus => "-"
  | times => "*"
  | divide => "/"
  | percent => "%"
  | ampersand => "&"
  | bang => "!"
  | bar => "|"
  | caret => "^"
  | shiftLeft => "<<"
  | shiftRight => ">>"
  | andNot => "&^"
  | logicalAnd => "&&"
  | logicalOr => "||"
  | equal => "=="
  | notEqual => "!="
  | less => "<"
  | lessEqual => "<="
  | greater => ">"
  | greaterEqual => ">="
  | leftParen => "("
  | rightParen => ")"
  | leftBracket => "["
  | rightBracket => "]"
  | leftBrace => "\x7b"
  | rightBrace => "\x7d"
  | comma => ","
  | period => "."
  | colon => ":"
  | semicolon => ";"
  | question => "?"

/-- How listings of tokens name a kind. -/
def name : TokenKind → String
  | identifier => "Identifier"
  | number => "Number"
  | string => "String"
  | boolean => "Boolean"
  | null => "Null"
  | booleanType => "BooleanKeyword"
  | numberType => "NumberKeyword"
  | stringType => "StringKeyword"
  | letWord => "Let"
  | returnWord => "Return"
  | functionWord => "Function"
  | lambdaWord => "Lambda"
  | ifWord => "If"
  | elseWord => "Else"
  | forWord => "For"
  | whileWord => "While"
  | breakWord => "Break"
  | continueWord => "Continue"
  | assign => "Assign"
  | addAssign => "AddAssign"
  | subAssign => "SubAssign"
  | mulAssign => "MulAssign"
  | divAssign => "QuoAssign"
  | remAssign => "RemAssign"
  | andAssign => "AndAssign"
  | orAssign => "OrAssign"
  | xorAssign => "XorAssign"
  | shiftLeftAssign => "ShlAssign"
  | shiftRightAssign => "ShrAssign"
  | andNotAssign => "AndNotAssign"
  | plus => "Add"
  | minus => "Sub"
  | times => "Mul"
  | divide => "Quo"
  | percent => "Rem"
  | ampersand => "And"
  | bang => "Not"
  | bar => "Or"
  | caret => "Xor"
  | shiftLeft => "Shl"
  | shiftRight => "Shr"
  | andNot => "AndNot"
  | logicalAnd => "LogicalAnd"
  | logicalOr => "LogicalOr"
  | equal => "Equal"
  | notEqual => "NotEqual"
  | less => "Lesser"
  | lessEqual => "LesserEqual"
  | greater => "Greater"
  | greaterEqual => "GreaterEqual"
  | leftParen => "LeftParen"
  | rightParen => "RightParen"
  | leftBracket => "LeftBracket"
  | rightBracket => "RightBracket"
  | leftBrace => "LeftBrace"
  | rightBrace => "RightBrace"
  | comma => "Comma"
  | period => "Period"
  | colon => "Colon"
  | semicolon => "Semicolon"
  | question => "Ternary"

/-- The words that are not identifiers. -/
def keywords : List (String × TokenKind) :=
  [("true", boolean), ("false", boolean), ("null", null),
    ("Boolean", booleanType), ("Number", numberType), ("String", stringType),
    ("let", letWord), ("return", returnWord), ("function", functionWord),
    ("lambda", lambdaWord), ("if", ifWord), ("else", elseWord), ("for", forWord),
    ("while", whileWord), ("break", breakWord), ("continue", continueWord)]

/-- The operators and punctuation, the longer spellings first. -/
def operators : List TokenKind :=
  [shiftLeftAssign, shiftRightAssign, andNotAssign,
    addAssign, subAssign, mulAssign, divAssign, remAssign, andAssign, orAssign, xorAssign,
    shiftLeft, shiftRight, andNot, logicalAnd, logicalOr, equal, notEqual, lessEqual, greaterEqual,
    assign, plus, minus, times, divide, percent, ampersand, bang, bar, caret, less, greater,
    leftParen, rightParen, leftBracket, rightBracket, leftBrace, rightBrace,
    comma, period, colon, semicolon, question]

/-- The kind of a word: a keyword if it is spelt like one, else an identifier. -/
def ofWord (word : String) : TokenKind := (keywords.lookup word).getD identifier

end TokenKind

/-- A token: its kind, its place and its text. -/
structure Token where
  kind : TokenKind
  span : Span
  text : String
deriving DecidableEq, Repr, Inhabited

/-- What the scanner could not read. -/
inductive ScanErrorKind where
  /-- No token starts with this character. -/
  | invalidCharacter (c : Char)
  /-- A string without its closing quote. -/
  | unterminatedString
  /-- A block comment without its end. -/
  | unterminatedComment
  /-- The text ended where a token was required. -/
  | unexpectedEnd
deriving DecidableEq, Repr

/-- An error of the scanner and the byte offset at which it arose. -/
structure ScanError where
  offset : Nat
  kind : ScanErrorKind
deriving DecidableEq, Repr

/-- What the error says, without its place. -/
def ScanErrorKind.message : ScanErrorKind → String
  | invalidCharacter c => "Unhandled character: '" ++ String.singleton c ++ "'"
  | unterminatedString => "Unterminated string literal"
  | unterminatedComment => "Unterminated block comment"
  | unexpectedEnd => "Unexpected end of expression"

/-- The full message of the error. -/
def ScanError.message (e : ScanError) : String :=
  "Index " ++ Nat.repr e.offset ++ ": " ++ e.kind.message

end SearchScript
