import WorkflowKit.Json.Reading

namespace WorkflowKit.Json

/-- Passes the digits of an exponent, with their sign. -/
def passExponent (input : Octets) : Except Stop Octets :=
  let signed := input.head? = some (octet '-') || input.head? = some (octet '+')
  match if signed then input.drop 1 else input with
  | [] => stop .malformedNumber []
  | b :: rest => if isDigit b then .ok (rest.dropWhile isDigit) else stop .malformedNumber rest

def passExponentIfAny (input : Octets) : Except Stop Octets :=
  match input with
  | [] => .ok []
  | b :: rest => if startsExponent b then passExponent rest else .ok input

def passFraction (input : Octets) : Except Stop Octets :=
  if (input.head?.map isDigit).getD false then passExponentIfAny (input.dropWhile isDigit)
  else stopAt .malformedNumber input

def passNumber (input : Octets) : Except Stop Octets :=
  match input with
  | [] => stop .malformedNumber []
  | b :: others =>
    if ¬ isDigit b then stop .malformedNumber others
    else if b = octet '0' ∧ (others.head?.map isDigit).getD false then
      stopAt .malformedNumber others
    else
      match others.dropWhile isDigit with
      | [] => .ok []
      | c :: rest =>
        if c = octet '.' then passFraction rest else passExponentIfAny (c :: rest)

/-- The number of octets that an escape takes after its backslash. -/
def escapeWidth (input : Octets) : Except Stop Nat :=
  match input with
  | [] => stop .endInText []
  | b :: rest =>
    if (shortEscape b).isSome then .ok 1
    else if b = octet 'u' then (fourDigits rest).map fun _ => 5
    else stop .malformedEscape rest

/-- Passes a text after its first quote. A control character is noticed before it is passed. -/
def passText : Octets → Except Stop Octets
  | [] => stop .endInText []
  | b :: rest =>
    if b = octet '"' then .ok rest
    else if b = octet '\\' then
      match escapeWidth rest with
      | .error fault => .error fault
      | .ok width => passText (rest.drop width)
    else if b < 0x20 then stop .control (b :: rest)
    else passText rest
termination_by input => input.length
decreasing_by all_goals simp only [List.length_cons, List.length_drop]; omega

inductive Bracket where
  | list
  | object
  deriving DecidableEq, Repr

namespace Bracket

/-- The octet that ends what is in the brackets. -/
def closing : Bracket → UInt8
  | list => octet ']'
  | object => octet '\x7d'

def endFault : Bracket → Fault
  | list => .endInList
  | object => .endInObject

def commaFault : Bracket → Fault
  | list => .commaOrListEndExpected
  | object => .commaOrObjectEndExpected

end Bracket

/-- Passes the brackets that end, and the comma after a value. Nothing has been passed yet in a
fresh bracket. Returns the brackets that are still open. -/
def passEnds : Bool → List Bracket → Octets → Except Stop (List Bracket × Octets)
  | _, [], input => .ok ([], input)
  | fresh, bracket :: outer, input =>
    match afterSpace input with
    | [] => stopAt bracket.endFault []
    | b :: rest =>
      if b = bracket.closing then passEnds false outer rest
      else if fresh then .ok (bracket :: outer, b :: rest)
      else if b = octet ',' then .ok (bracket :: outer, rest)
      else stopAt bracket.commaFault (b :: rest)

/-- Passes the name of a member and the colon after it. Items of a list have no names. -/
def passName (bracket : Bracket) (input : Octets) : Except Stop Octets :=
  match bracket with
  | .list => .ok input
  | .object =>
    match afterSpace input with
    | [] => stopAt .endInObject []
    | b :: rest =>
      if b = octet '"' then (passText rest).bind colon else stopAt .nameExpected (b :: rest)

/-- Passes a value that is no list and no object. -/
def passScalar (input : Octets) : Except Stop Octets :=
  match input with
  | [] => stopAt .endInValue []
  | b :: rest =>
    if b = octet 'n' then (word .null ['u', 'l', 'l'] rest).map (·.2)
    else if b = octet 't' then (word .null ['r', 'u', 'e'] rest).map (·.2)
    else if b = octet 'f' then (word .null ['a', 'l', 's', 'e'] rest).map (·.2)
    else if b = octet '-' then passNumber rest
    else if isDigit b then passNumber (b :: rest)
    else if b = octet '"' then passText rest
    else stopAt .notAValue (b :: rest)

/-- Passes the start of a value: an opening bracket, or a whole scalar. -/
def passStart (brackets : List Bracket) (input : Octets) :
    Except Stop (Bool × List Bracket × Octets) :=
  match input with
  | [] => stopAt .endInValue []
  | b :: rest =>
    if b = octet '[' then .ok (true, .list :: brackets, rest)
    else if b = octet '\x7b' then .ok (true, .object :: brackets, rest)
    else (passScalar (b :: rest)).map fun after => (false, brackets, after)

/-- Passes a value, and all that follows it in the brackets that are open. The fuel bounds the
number of values. -/
def passFrom : Nat → List Bracket → Octets → Except Stop Octets
  | 0, _, input => stop .tooDeep input
  | fuel + 1, brackets, input => do
    let (fresh, brackets, rest) ← passStart brackets (afterSpace input)
    let (brackets, rest) ← passEnds fresh brackets rest
    match brackets with
    | [] => .ok rest
    | bracket :: _ => passFrom fuel brackets (← passName bracket rest)

/-- Passes over a value that nobody asks for. Only its form is checked: numbers may be too large,
escapes need not write a character, and values may be nested to any depth. -/
def passValue (input : Octets) : Except Stop Octets :=
  passFrom (input.length + 1) [] input

end WorkflowKit.Json
