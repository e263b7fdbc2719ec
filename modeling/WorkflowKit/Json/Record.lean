import WorkflowKit.Json.Passing
import WorkflowKit.Text.Quoted

namespace WorkflowKit.Json

inductive FieldType where
  | text
  | optionalText
  | list
  | optionalList
  | natural
  | truth
  | address
  deriving DecidableEq, Repr

namespace FieldType

/-- What a field holds if its member is missing. -/
def missing? : FieldType → Option Json
  | optionalText => some .null
  | optionalList => some .null
  | _ => none

/-- The name of a type in a message. -/
def expected : FieldType → String
  | text | optionalText | address => "a string"
  | list | optionalList => "a sequence"
  | natural => "u64"
  | truth => "a boolean"

end FieldType

structure Shape where
  name : String
  fields : List (String × FieldType)

/-- What a value is, in a message about a wrong type. -/
def describe : Json → String
  | .null => "null"
  | .bool value => if value then "boolean `true`" else "boolean `false`"
  | .number (.integer value) => s!"integer `{value}`"
  | .number (.float value) => s!"floating point `{String.ofList value.written}`"
  | .text value => "string " ++ Text.quoted value
  | .array _ => "sequence"
  | .object _ => "map"

def wrongType (value : Json) (expected : String) : Fault :=
  .unfit s!"invalid type: {describe value}, expected {expected}"

/-- The text of a scheme at the start of an address, which a colon follows. -/
def hasScheme (text : String) : Bool :=
  let scheme := text.toList.takeWhile fun c => c.isAlphanum || c = '+' || c = '-' || c = '.'
  (scheme.head?.any Char.isAlpha) && text.toList[scheme.length]? = some ':'

/-- Holds when a value has the type of a field; otherwise says what is wrong. -/
def check (type : FieldType) (value : Json) : Except Fault Json :=
  match type, value with
  | .text, .text _ => .ok value
  | .optionalText, .text _ => .ok value
  | .optionalText, .null => .ok value
  | .list, .array _ => .ok value
  | .optionalList, .array _ => .ok value
  | .optionalList, .null => .ok value
  | .natural, .number (.integer n) =>
    if 0 ≤ n then .ok value
    else .error (.unfit s!"invalid value: integer `{n}`, expected {type.expected}")
  | .truth, .bool _ => .ok value
  | .address, .text address =>
    if hasScheme address then .ok value
    else
      let found := "string " ++ Text.quoted address
      .error (.unfit s!"invalid value: {found}, expected relative URL without a base")
  | _, _ => .error (wrongType value type.expected)

/-- Reads the value of a field. A collection of the wrong type is noticed at its first octet. -/
def field (fuel depth : Nat) (type : FieldType) (input : Octets) :
    Except Stop (Json × Octets) := do
  let input := afterSpace input
  let collection : Option Json :=
    match input with
    | b :: _ =>
      if b = octet '\x7b' then some (.object [])
      else if b = octet '[' && type ≠ .list && type ≠ .optionalList then some (.array [])
      else none
    | [] => none
  match collection with
  | some value => stop (wrongType value type.expected) input
  | none =>
    let (value, rest) ← value fuel depth input
    match check type value with
    | .ok value => .ok (value, rest)
    | .error fault => stop fault rest

/-- Puts the fields of a shape in order. The first one that is missing is a fault. -/
def ordered (shape : Shape) (given : List (String × Json)) (rest : Octets) :
    Except Stop (List Json) :=
  shape.fields.mapM fun (name, type) =>
    match given.lookup name with
    | some value => .ok value
    | none =>
      match type.missing? with
      | some value => .ok value
      | none => stop (.unfit s!"missing field `{name}`") rest

/-- Reads the members of an object up to its end, and keeps those of the shape. -/
def fieldMembers (shape : Shape) (depth : Nat) :
    Nat → Bool → List (String × Json) → Octets → Except Stop (List (String × Json) × Octets)
  | 0, _, _, input => stop .tooDeep input
  | fuel + 1, first, given, input => do
    match ← memberName first input with
    | (none, rest) => .ok (given, rest)
    | (some name, rest) =>
      match shape.fields.lookup name with
      | none =>
        let rest ← (colon rest >>= passValue).mapError (·.below (.member name))
        fieldMembers shape depth fuel false given rest
      | some type =>
        if (given.lookup name).isSome then
          stop (.unfit s!"duplicate field `{name}`") (afterSpace rest)
        else
          let (value, rest) ←
            (colon rest >>= field fuel depth type).mapError (·.below (.member name))
          fieldMembers shape depth fuel false (given ++ [(name, value)]) rest

/-- What follows the end of an array, of which all items that count have been read. -/
def listEnd (input : Octets) : Except Stop Octets :=
  match afterSpace input with
  | [] => stopAt .endInList []
  | b :: rest =>
    if b = octet ']' then .ok rest
    else if b = octet ',' then
      let others := afterSpace rest
      if others.head? = some (octet ']') then stopAt .trailingComma others
      else stopAt .trailingText others
    else stopAt .trailingText (b :: rest)

def fieldItems (shape : Shape) (depth fuel : Nat) :
    Nat → List (String × FieldType) → Octets → Except Stop (List Json × Octets)
  | _, [], input => (listEnd input).map fun rest => ([], rest)
  | index, (_, type) :: fields, input => do
    let (more, rest) ← (nextItem (index = 0) input).mapError (·.below (.index index))
    if more then
      let (value, rest) ← (field fuel depth type rest).mapError (·.below (.index index))
      let (others, rest) ← fieldItems shape depth fuel (index + 1) fields rest
      .ok (value :: others, rest)
    else
      let count := shape.fields.length
      let elements := if count = 1 then "element" else "elements"
      stop (.unfit s!"invalid length {index}, expected struct {shape.name} with {count} {elements}")
        rest

/-- Reads an object of a known shape. Members that the shape does not name are passed over, and in
place of an object an array may give the fields in their order. -/
def record (shape : Shape) (fuel depth : Nat) (input : Octets) :
    Except Stop (List Json × Octets) := do
  let input := afterSpace input
  match input with
  | [] => stopAt .endInValue []
  | b :: rest =>
    if b = octet '\x7b' then
      if depth ≤ 1 then stopAt .tooDeep input
      else
        let (given, rest) ← fieldMembers shape (depth - 1) fuel true [] rest
        .ok (← ordered shape given rest, rest)
    else if b = octet '[' then
      if depth ≤ 1 then stopAt .tooDeep input
      else fieldItems shape (depth - 1) fuel 0 shape.fields rest
    else
      let (value, rest) ← value fuel depth input
      stop (wrongType value s!"struct {shape.name}") rest

def recordItems (shape : Shape) (depth : Nat) :
    Nat → Nat → Octets → Except Stop (List (List Json) × Octets)
  | 0, _, input => stop .tooDeep input
  | fuel + 1, index, input => do
    let (more, rest) ← (nextItem (index = 0) input).mapError (·.below (.index index))
    if more then
      let (item, rest) ← (record shape fuel depth rest).mapError (·.below (.index index))
      let (others, rest) ← recordItems shape depth fuel (index + 1) rest
      .ok (item :: others, rest)
    else .ok ([], rest)

def recordList (shape : Shape) (fuel depth : Nat) (input : Octets) :
    Except Stop (List (List Json) × Octets) := do
  let input := afterSpace input
  match input with
  | [] => stopAt .endInValue []
  | b :: rest =>
    if b = octet '[' then recordItems shape (depth - 1) fuel 0 rest
    else if b = octet '\x7b' then stop (wrongType (.object []) "a sequence") input
    else
      let (value, rest) ← value fuel depth input
      stop (wrongType value "a sequence") rest

/-- Reads the record at the start of octets, whatever follows it. -/
def readRecord (shape : Shape) (input : Octets) : Except Error (List Json) :=
  ((record shape (fuelFor input) usualDepth input).map (·.1)).mapError (placed input)

def readWholeRecord (shape : Shape) (input : Octets) : Except Error (List Json) :=
  (do
    let (fields, rest) ← record shape (fuelFor input) usualDepth input
    match afterSpace rest with
    | [] => .ok fields
    | b :: after => stopAt .trailingText (b :: after) : Except Stop (List Json)).mapError
      (placed input)

/-- Reads the array of records at the start of octets, whatever follows it. -/
def readRecordList (shape : Shape) (input : Octets) : Except Error (List (List Json)) :=
  ((recordList shape (fuelFor input) usualDepth input).map (·.1)).mapError (placed input)

end WorkflowKit.Json
