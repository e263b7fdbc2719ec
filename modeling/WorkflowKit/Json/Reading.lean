import WorkflowKit.Json.Value
import WorkflowKit.Json.Fault

namespace WorkflowKit.Json

/-- A fault noticed after the octets already read. -/
def stop {α : Type} (fault : Fault) (rest : Octets) : Except Stop α :=
  .error ⟨fault, rest.length, []⟩

/-- A fault noticed at the next octet. -/
def stopAt {α : Type} (fault : Fault) (rest : Octets) : Except Stop α :=
  .error ⟨fault, rest.length - 1, []⟩

/-- The octet of an ASCII character. -/
def octet (c : Char) : UInt8 :=
  c.toUInt8

/-- Octets that may stand between the parts of a value. -/
def isSpace (b : UInt8) : Bool :=
  b = octet ' ' || b = octet '\n' || b = octet '\t' || b = octet '\r'

def isDigit (b : UInt8) : Bool :=
  octet '0' ≤ b && b ≤ octet '9'

def digitValue (b : UInt8) : Nat :=
  b.toNat - 0x30

def afterSpace (input : Octets) : Octets :=
  input.dropWhile isSpace

/-- Reads the letters of a word after its first one. -/
def word (value : Json) : List Char → Octets → Except Stop (Json × Octets)
  | [], rest => .ok (value, rest)
  | _ :: _, [] => stop .endInValue []
  | c :: cs, b :: rest => if b = octet c then word value cs rest else stop .notAWord rest

/-- The largest significand that is counted exactly. -/
def significandLimit : Nat := Nat.pow 2 64 - 1

/-- Appends digits to a significand while it stays within the limit. Returns the digits left. -/
def appendDigits : Nat → Octets → Nat × Octets
  | significand, [] => (significand, [])
  | significand, b :: rest =>
    let next := significand * 10 + digitValue b
    if next ≤ significandLimit then appendDigits next rest else (significand, b :: rest)

/-- A power of ten in the format binary64. -/
def powerOfTen (exponent : Nat) : Binary64 :=
  (Binary64.ofQuotient false (Nat.pow 10 exponent) 1).getD (Binary64.zero false)

/-- Multiplies by a power of ten, rounding at each step; a step covers at most 308 powers. -/
def scaled : Nat → Binary64 → Int → Option Binary64
  | 0, _, _ => none
  | steps + 1, x, exponent =>
    if exponent.natAbs ≤ 308 then
      let power := powerOfTen exponent.natAbs
      if 0 ≤ exponent then x.mul power else x.div power
    else if x.significand = 0 then some x
    else if 0 ≤ exponent then none
    else (x.div (powerOfTen 308)).bind fun smaller => scaled steps smaller (exponent + 308)

/-- The number with a significand and a power of ten. -/
def floatNumber (negative : Bool) (significand : Nat) (exponent : Int) (rest : Octets) :
    Except Stop (JsonNumber × Octets) :=
  match scaled 4 (Binary64.ofNat significand) exponent with
  | some x => .ok (.float (x.withSign negative), rest)
  | none => stop .numberTooLarge rest

/-- The largest exponent that is counted. -/
def exponentLimit : Nat := Nat.pow 2 31 - 1

/-- The value of the digits of an exponent, or the digits left when it passes the limit. -/
def exponentValue : Nat → Octets → Except Octets Nat
  | value, [] => .ok value
  | value, b :: rest =>
    let next := value * 10 + digitValue b
    if next ≤ exponentLimit then exponentValue next rest else .error rest

def exponent (negative : Bool) (significand : Nat) (start : Int) (input : Octets) :
    Except Stop (JsonNumber × Octets) :=
  let below := input.head? = some (octet '-')
  let digits := if below ∨ input.head? = some (octet '+') then input.drop 1 else input
  let rest := digits.dropWhile isDigit
  match digits with
  | [] => stop .endInValue []
  | first :: others =>
    if isDigit first then
      match exponentValue 0 (digits.takeWhile isDigit) with
      | .ok value =>
        let power := if below then start - value else start + value
        floatNumber negative significand power rest
      | .error left =>
        if significand ≠ 0 ∧ ¬ below then stop .numberTooLarge (left ++ rest)
        else .ok (.float (Binary64.zero negative), rest)
    else stop .malformedNumber others

/-- Holds of the letters that begin an exponent. -/
def startsExponent (b : UInt8) : Bool :=
  b = octet 'e' || b = octet 'E'

/-- Reads what may follow the digits of a number with a point or with too many digits. -/
def afterDigits (negative : Bool) (significand : Nat) (power : Int) (input : Octets) :
    Except Stop (JsonNumber × Octets) :=
  match input with
  | [] => floatNumber negative significand power []
  | b :: rest =>
    if startsExponent b then exponent negative significand power rest
    else floatNumber negative significand power input

def fraction (negative : Bool) (significand : Nat) (power : Int) (input : Octets) :
    Except Stop (JsonNumber × Octets) :=
  let digits := input.takeWhile isDigit
  let rest := input.dropWhile isDigit
  if digits.isEmpty then
    if input.isEmpty then stopAt .endInValue input else stopAt .malformedNumber input
  else
    let (all, left) := appendDigits significand digits
    afterDigits negative all (power - (digits.length - left.length : Nat)) rest

/-- An integer within 64 bits, or the float next to it. Zero with a sign is a float. -/
def wholeNumber (negative : Bool) (significand : Nat) : JsonNumber :=
  if negative then
    if significand = 0 ∨ Nat.pow 2 63 < significand then
      .float ((Binary64.ofNat significand).withSign true)
    else .integer (-significand)
  else .integer significand

def unsigned (negative : Bool) (input : Octets) : Except Stop (JsonNumber × Octets) :=
  match input with
  | [] => stop .endInValue []
  | first :: others =>
    if ¬ isDigit first then stop .malformedNumber others
    else if first = octet '0' ∧ (others.head?.map isDigit).getD false then
      stopAt .malformedNumber others
    else
      let (significand, left) := appendDigits 0 (input.takeWhile isDigit)
      let rest := input.dropWhile isDigit
      match rest with
      | [] =>
        if left.isEmpty then .ok (wholeNumber negative significand, [])
        else floatNumber negative significand left.length []
      | b :: after =>
        if b = octet '.' then fraction negative significand left.length after
        else if startsExponent b then exponent negative significand left.length after
        else if left.isEmpty then .ok (wholeNumber negative significand, rest)
        else floatNumber negative significand left.length rest

def hexValue (b : UInt8) : Option Nat :=
  if isDigit b then some (digitValue b)
  else if octet 'a' ≤ b && b ≤ octet 'f' then some (b.toNat - 0x57)
  else if octet 'A' ≤ b && b ≤ octet 'F' then some (b.toNat - 0x37)
  else none

/-- The number that four octets write in base sixteen. -/
def hexNumber (octets : Octets) : Option Nat :=
  octets.foldl (fun number b => number.bind fun n => (hexValue b).map (n * 16 + ·)) (some 0)

def fourDigits (input : Octets) : Except Stop Nat :=
  if input.length < 4 then stop .endInText []
  else
    match hexNumber (input.take 4) with
    | some n => .ok n
    | none => stop .malformedEscape (input.drop 4)

/-- Reads an escaped number, or two that are a pair of surrogates: the character, and how many
octets it takes. -/
def escapedNumber (input : Octets) : Except Stop (Char × Nat) := do
  let first ← fourDigits input
  let rest := input.drop 4
  if 0xDC00 ≤ first ∧ first ≤ 0xDFFF then stop .loneSurrogate rest
  else if first < 0xD800 ∨ 0xDBFF < first then .ok (Char.ofNat first, 4)
  else
    match rest with
    | [] => stop .endInText []
    | b :: after =>
      if b ≠ octet '\\' then stop .cutSurrogate after
      else
        match after with
        | [] => stop .endInText []
        | u :: digits =>
          if u ≠ octet 'u' then stop .cutSurrogate digits
          else
            let second ← fourDigits digits
            if second < 0xDC00 ∨ 0xDFFF < second then stop .loneSurrogate (digits.drop 4)
            else
              let number := (first - 0xD800) * 0x400 + (second - 0xDC00) + 0x10000
              .ok (Char.ofNat number, 10)

/-- The character that a letter after a backslash stands for. -/
def shortEscape (b : UInt8) : Option Char :=
  if b = octet '"' then some '"'
  else if b = octet '\\' then some '\\'
  else if b = octet '/' then some '/'
  else if b = octet 'b' then some '\x08'
  else if b = octet 'f' then some '\x0c'
  else if b = octet 'n' then some '\n'
  else if b = octet 'r' then some '\r'
  else if b = octet 't' then some '\t'
  else none

/-- Reads an escape after its backslash: the character, and how many octets it takes. -/
def escape (input : Octets) : Except Stop (Char × Nat) :=
  match input with
  | [] => stop .endInText []
  | b :: rest =>
    match shortEscape b with
    | some c => .ok (c, 1)
    | none =>
      if b = octet 'u' then (escapedNumber rest).map fun (c, n) => (c, n + 1)
      else stop .malformedEscape rest

/-- Reads a text after its first quote, as octets. -/
def textOctets : Octets → Except Stop (Octets × Octets)
  | [] => stop .endInText []
  | b :: rest =>
    if b = octet '"' then .ok ([], rest)
    else if b = octet '\\' then
      match escape rest with
      | .error fault => .error fault
      | .ok (c, taken) =>
        (textOctets (rest.drop taken)).map fun (octets, after) =>
          (String.utf8EncodeChar c ++ octets, after)
    else if b < 0x20 then stop .control rest
    else (textOctets rest).map fun (octets, after) => (b :: octets, after)
termination_by input => input.length
decreasing_by all_goals simp only [List.length_cons, List.length_drop]; omega

def textValue (input : Octets) : Except Stop (String × Octets) := do
  let (octets, rest) ← textOctets input
  match octets.text? with
  | some s => .ok (s, rest)
  | none => stop .illFormed rest

def colon (input : Octets) : Except Stop Octets :=
  match afterSpace input with
  | [] => stopAt .endInObject []
  | b :: rest => if b = octet ':' then .ok rest else stopAt .colonExpected (b :: rest)

/-- Where the next item of a list begins, `none` at its end with what follows. -/
def nextItem (first : Bool) (input : Octets) : Except Stop (Bool × Octets) :=
  match afterSpace input with
  | [] => stopAt .endInList []
  | b :: rest =>
    if b = octet ']' then .ok (false, rest)
    else if first then .ok (true, b :: rest)
    else if b = octet ',' then
      match afterSpace rest with
      | [] => stopAt .endInValue []
      | c :: others =>
        if c = octet ']' then stopAt .trailingComma (c :: others) else .ok (true, c :: others)
    else stopAt .commaOrListEndExpected (b :: rest)

/-- Whether an object goes on, with what follows the quote of the next name or its end. -/
def nextName (first : Bool) (input : Octets) : Except Stop (Bool × Octets) :=
  match afterSpace input with
  | [] => stopAt .endInObject []
  | b :: rest =>
    if b = octet '\x7d' then .ok (false, rest)
    else if first then
      if b = octet '"' then .ok (true, rest) else stopAt .nameExpected (b :: rest)
    else if b = octet ',' then
      match afterSpace rest with
      | [] => stopAt .endInValue []
      | c :: others =>
        if c = octet '"' then .ok (true, others)
        else if c = octet '\x7d' then stopAt .trailingComma (c :: others)
        else stopAt .nameExpected (c :: others)
    else stopAt .commaOrObjectEndExpected (b :: rest)

/-- The name of the next member of an object, if there is one, and what follows it. -/
def memberName (first : Bool) (input : Octets) : Except Stop (Option String × Octets) :=
  (do
    let (more, rest) ← nextName first input
    if more then
      let (name, rest) ← textValue rest
      return (some name, rest)
    else return (none, rest) : Except Stop (Option String × Octets)).mapError (·.below .unnamed)

mutual

/-- Reads a value from the octets that are left, and gives those after it. Values may be nested to a
given depth. The fuel bounds the number of nested calls; twice the number of octets is always
enough. -/
def value : Nat → Nat → Octets → Except Stop (Json × Octets)
  | 0, _, input => stop .tooDeep input
  | fuel + 1, depth, input =>
    match afterSpace input with
    | [] => stopAt .endInValue []
    | b :: rest =>
      if b = octet 'n' then word .null ['u', 'l', 'l'] rest
      else if b = octet 't' then word (.bool true) ['r', 'u', 'e'] rest
      else if b = octet 'f' then word (.bool false) ['a', 'l', 's', 'e'] rest
      else if b = octet '-' then (unsigned true rest).map fun (n, after) => (.number n, after)
      else if isDigit b then (unsigned false (b :: rest)).map fun (n, after) => (.number n, after)
      else if b = octet '"' then (textValue rest).map fun (s, after) => (.text s, after)
      else if b = octet '[' then
        if depth ≤ 1 then stopAt .tooDeep (b :: rest)
        else (items fuel (depth - 1) 0 rest).map fun (vs, after) => (.array vs, after)
      else if b = octet '\x7b' then
        if depth ≤ 1 then stopAt .tooDeep (b :: rest)
        else (members fuel (depth - 1) true rest).map fun (ms, after) => (.ofMembers ms, after)
      else stopAt .notAValue (b :: rest)

/-- Reads the items of an array, from a given one up to the end. -/
def items : Nat → Nat → Nat → Octets → Except Stop (List Json × Octets)
  | 0, _, _, input => stop .tooDeep input
  | fuel + 1, depth, index, input => do
    let (more, rest) ← (nextItem (index = 0) input).mapError (·.below (.index index))
    if more then
      let (item, rest) ← (value fuel depth rest).mapError (·.below (.index index))
      let (others, rest) ← items fuel depth (index + 1) rest
      .ok (item :: others, rest)
    else .ok ([], rest)

def members : Nat → Nat → Bool → Octets → Except Stop (List (String × Json) × Octets)
  | 0, _, _, input => stop .tooDeep input
  | fuel + 1, depth, first, input => do
    match ← memberName first input with
    | (some name, rest) =>
      let (item, rest) ← (colon rest >>= value fuel depth).mapError (·.below (.member name))
      let (others, rest) ← members fuel depth false rest
      .ok ((name, item) :: others, rest)
    | (none, rest) => .ok ([], rest)

end

/-- The depth to which values may be nested. -/
def usualDepth : Nat := 128

/-- Enough fuel for the octets. -/
def fuelFor (input : Octets) : Nat :=
  2 * input.length + 2

/-- Reads a value at the start of the octets. -/
def valueAtStart (depth : Nat) (input : Octets) : Except Stop (Json × Octets) :=
  value (fuelFor input) depth input

/-- Nothing but blanks may follow a complete value. -/
def complete (read : Json × Octets) : Except Stop Json :=
  match afterSpace read.2 with
  | [] => .ok read.1
  | b :: rest => stopAt .trailingText (b :: rest)

/-- The place of a fault in the octets that were read. -/
def placed (input : Octets) (stop : Stop) : Error :=
  let before := input.take (input.length - stop.unread)
  let lineEnds := before.count (octet '\n')
  let column := (before.reverse.takeWhile (· != octet '\n')).length
  ⟨stop.fault, lineEnds + 1, column, stop.path⟩

/-- Reads octets that hold one value, nested to a given depth. -/
def readTo (depth : Nat) (input : Octets) : Except Error Json :=
  ((valueAtStart depth input).bind complete).mapError (placed input)

def read (input : Octets) : Except Error Json :=
  readTo usualDepth input

/-- Reads the value at the start of the octets, whatever follows it. -/
def readFirst (input : Octets) : Except Error Json :=
  ((valueAtStart usualDepth input).map (·.1)).mapError (placed input)

end WorkflowKit.Json
