import WorkflowKit.SortedMap
import WorkflowKit.Decimal.Layout
import WorkflowKit.Text.Octets

namespace WorkflowKit

/-- Integers of 64 bits are exact, and all other numbers have the format binary64. -/
inductive JsonNumber where
  | integer (value : Int)
  | float (value : Binary64)
  deriving DecidableEq, Repr

/-- A JSON value. The members of an object stand in ascending order of their names. -/
inductive Json where
  | null
  | bool (value : Bool)
  | number (value : JsonNumber)
  | text (value : String)
  | array (items : List Json)
  | object (members : List (String × Json))
  deriving Repr, Inhabited

namespace Json

/-- The object with the given members. Of two members with one name the later counts. -/
def ofMembers (members : List (String × Json)) : Json :=
  object (SortedMap.ofList members).entries

def ofNat (n : Nat) : Json :=
  number (.integer n)

def ofTexts (texts : List String) : Json :=
  array (texts.map text)

def member? (name : String) : Json → Option Json
  | object members => members.lookup name
  | _ => none

def text? : Json → Option String
  | text value => some value
  | _ => none

def items? : Json → Option (List Json)
  | array items => some items
  | _ => none

/-- A character in a quoted text: the quote, the backslash and all controls are escaped. -/
def escaped (c : Char) : List Char :=
  if c = '"' then ['\\', '"']
  else if c = '\\' then ['\\', '\\']
  else if c = '\x08' then ['\\', 'b']
  else if c = '\x0c' then ['\\', 'f']
  else if c = '\n' then ['\\', 'n']
  else if c = '\r' then ['\\', 'r']
  else if c = '\t' then ['\\', 't']
  else if c.toNat < 0x10 then ['\\', 'u', '0', '0', '0'] ++ Nat.toDigits 16 c.toNat
  else if c.toNat < 0x20 then ['\\', 'u', '0', '0'] ++ Nat.toDigits 16 c.toNat
  else [c]

def quotedChars (cs : List Char) : List Char :=
  '"' :: cs.flatMap escaped ++ ['"']

def numberChars : JsonNumber → List Char
  | .integer value => decimalInt value
  | .float value => value.written

mutual

/-- The text of a value, without blanks. -/
def chars : Json → List Char
  | null => ['n', 'u', 'l', 'l']
  | bool true => ['t', 'r', 'u', 'e']
  | bool false => ['f', 'a', 'l', 's', 'e']
  | number value => numberChars value
  | text value => quotedChars value.toList
  | array [] => ['[', ']']
  | array (item :: items) => '[' :: chars item ++ itemChars items
  | object [] => ['\x7b', '\x7d']
  | object (entry :: members) => '\x7b' :: entryChars entry ++ memberChars members

/-- The items after the first one, and the end of the array. -/
def itemChars : List Json → List Char
  | [] => [']']
  | item :: items => ',' :: chars item ++ itemChars items

def entryChars : String × Json → List Char
  | (name, value) => quotedChars name.toList ++ ':' :: chars value

/-- The members after the first one, and the end of the object. -/
def memberChars : List (String × Json) → List Char
  | [] => ['\x7d']
  | entry :: members => ',' :: entryChars entry ++ memberChars members

end

def written (value : Json) : String :=
  String.ofList value.chars

def octets (value : Json) : Octets :=
  Octets.ofChars value.chars

end Json

end WorkflowKit
