namespace WorkflowKit.Json

inductive Fault where
  | endInValue
  | endInList
  | endInObject
  | endInText
  | notAValue
  | notAWord
  | colonExpected
  | commaOrListEndExpected
  | commaOrObjectEndExpected
  | nameExpected
  | trailingComma
  | trailingText
  | malformedNumber
  | numberTooLarge
  | malformedEscape
  | control
  | loneSurrogate
  | cutSurrogate
  | illFormed
  | tooDeep
  | unfit (detail : String)
  deriving DecidableEq, Repr

def Fault.message : Fault → String
  | endInValue => "EOF while parsing a value"
  | endInList => "EOF while parsing a list"
  | endInObject => "EOF while parsing an object"
  | endInText => "EOF while parsing a string"
  | notAValue => "expected value"
  | notAWord => "expected ident"
  | colonExpected => "expected `:`"
  | commaOrListEndExpected => "expected `,` or `]`"
  | commaOrObjectEndExpected => "expected `,` or `\x7d`"
  | nameExpected => "key must be a string"
  | trailingComma => "trailing comma"
  | trailingText => "trailing characters"
  | malformedNumber => "invalid number"
  | numberTooLarge => "number out of range"
  | malformedEscape => "invalid escape"
  | control => "control character (\\u0000-\\u001F) found while parsing a string"
  | loneSurrogate => "lone leading surrogate in hex escape"
  | cutSurrogate => "unexpected end of hex escape"
  | illFormed => "invalid unicode code point"
  | tooDeep => "recursion limit exceeded"
  | unfit detail => detail

inductive Step where
  | index (n : Nat)
  | member (name : String)
  /-- To a member of which the name has not been read. -/
  | unnamed
  deriving DecidableEq, Repr

/-- The way to a part of a value, written with dots and brackets. The whole value is a dot. -/
def pathText : List Step → String
  | [] => "."
  | first :: others =>
    others.foldl (fun way step => way ++ named "." step) (named "" first)
where
  named (separator : String) : Step → String
    | .index n => s!"[{n}]"
    | .member name => separator ++ name
    | .unnamed => separator ++ "?"

/-- A fault with its line, the number of octets up to it on that line, and the part of the value
that was being read. -/
structure Error where
  fault : Fault
  line : Nat
  column : Nat
  path : List Step
  deriving DecidableEq, Repr

namespace Error

def message (error : Error) : String :=
  s!"{error.fault.message} at line {error.line} column {error.column}"

def locatedMessage (error : Error) : String :=
  pathText error.path ++ ": " ++ error.message

end Error

/-- A fault that is noticed while reading, and the number of octets not yet read. -/
structure Stop where
  fault : Fault
  unread : Nat
  path : List Step
  deriving DecidableEq, Repr

/-- The fault as a fault of a larger value. -/
def Stop.below (step : Step) (stop : Stop) : Stop :=
  { stop with path := step :: stop.path }

end WorkflowKit.Json
