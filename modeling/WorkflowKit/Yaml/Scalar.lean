import WorkflowKit.Yaml.Token
import WorkflowKit.Decimal.Layout
import WorkflowKit.Text.Quoted

namespace WorkflowKit.Yaml

inductive Float where
  | finite (value : Binary64)
  | infinite (negative : Bool)
  | nan
  deriving DecidableEq, Repr

/-- The meaning of a scalar. Integers without a minus sign and with one are told apart, and integers
of more than 64 bits from both. -/
inductive Scalar where
  | null
  | bool (value : Bool)
  | natural (value : Nat)
  | signed (value : Int)
  | wide (value : Int) (signed : Bool)
  | float (value : Float)
  | text (value : String)
  deriving DecidableEq, Repr

namespace Scalar

/-- The tag of a kind of scalar that every document knows. -/
def coreTag (name : String) : Octets :=
  Octets.ofText ("tag:yaml.org,2002:" ++ name)

def isNull (text : String) : Bool :=
  ["null", "Null", "NULL", "~"].contains text

def bool? (text : String) : Option Bool :=
  if ["true", "True", "TRUE"].contains text then some true
  else if ["false", "False", "FALSE"].contains text then some false
  else none

/-- The value of a digit in a base of at most sixteen. -/
def digit? (base : Nat) (c : Char) : Option Nat :=
  let value :=
    if c.isDigit then some (c.toNat - 0x30)
    else if 'a' ≤ c ∧ c ≤ 'f' then some (c.toNat - 0x57)
    else if 'A' ≤ c ∧ c ≤ 'F' then some (c.toNat - 0x37)
    else none
  value.filter (· < base)

/-- The number that digits write in a base. -/
def digits? (base : Nat) (digits : List Char) : Option Nat :=
  if digits.isEmpty then none
  else digits.foldlM (fun n c => (digit? base c).map (n * base + ·)) 0

/-- Holds of a zero with more digits after it. -/
def isPadded (digits : List Char) : Bool :=
  match digits with
  | '0' :: c :: rest => (c :: rest).all Char.isDigit
  | _ => false

/-- The magnitude that digits write, in base ten or in the base that they name. -/
def magnitude? (digits : List Char) : Option Nat :=
  match digits with
  | '0' :: 'x' :: rest => digits? 16 rest
  | '0' :: 'o' :: rest => digits? 8 rest
  | '0' :: 'b' :: rest => digits? 2 rest
  | _ => if isPadded digits then none else digits? 10 digits

/-- The integer that a text writes, of at most 128 bits. -/
def integer? (text : String) : Option Scalar :=
  match text.toList with
  | '-' :: digits =>
    (magnitude? digits).bind fun n =>
      if n ≤ Nat.pow 2 63 then some (signed (-n))
      else if n ≤ Nat.pow 2 127 then some (wide (-n) true)
      else none
  | cs =>
    (magnitude? (if cs.head? = some '+' then cs.drop 1 else cs)).bind fun n =>
      if n < Nat.pow 2 64 then some (natural n)
      else if n < Nat.pow 2 128 then some (wide n false)
      else none

/-- The number in decimal notation that a text without a sign writes. -/
def decimal? (negative : Bool) (cs : List Char) : Option Binary64 := do
  let whole := cs.takeWhile Char.isDigit
  let rest := cs.dropWhile Char.isDigit
  let tail := if rest.head? = some '.' then rest.drop 1 else []
  let places := tail.takeWhile Char.isDigit
  let rest := if rest.head? = some '.' then tail.dropWhile Char.isDigit else rest
  let digits ← digits? 10 (whole ++ places)
  let exponent ←
    match rest with
    | [] => some (0 : Int)
    | e :: after =>
      if e = 'e' ∨ e = 'E' then
        match after with
        | '-' :: ds => (digits? 10 ds).map fun n => -(n : Int)
        | '+' :: ds => (digits? 10 ds).map fun n => (n : Int)
        | ds => (digits? 10 ds).map fun n => (n : Int)
      else none
  Binary64.ofDecimal negative digits (exponent - places.length)

/-- The float that a text writes, finite unless it is spelled out. -/
def float? (text : String) : Option Float :=
  if [".inf", ".Inf", ".INF", "+.inf", "+.Inf", "+.INF"].contains text then some (.infinite false)
  else if ["-.inf", "-.Inf", "-.INF"].contains text then some (.infinite true)
  else if [".nan", ".NaN", ".NAN"].contains text then some .nan
  else
    let number :=
      match text.toList with
      | '-' :: cs => decimal? true cs
      | '+' :: cs => decimal? false cs
      | cs => decimal? false cs
    number.map .finite

/-- The meaning of a plain scalar without a tag. -/
def ofPlain (text : String) : Scalar :=
  if text.isEmpty || isNull text then .null
  else
    match bool? text with
    | some b => .bool b
    | none =>
      match integer? text with
      | some n => n
      | none =>
        let digits := match text.toList with
          | '-' :: cs | '+' :: cs => cs
          | cs => cs
        match if isPadded digits then none else float? text with
        | some x => .float x
        | none => .text text

end Scalar

/-- A scalar of the wrong form for its tag. -/
structure Mistagged where
  text : String
  wanted : String
  deriving DecidableEq, Repr

namespace Scalar

/-- The meaning of a scalar with its tag and style. -/
def read (tag : Option Octets) (style : Style) (text : String) : Except Mistagged Scalar :=
  match tag with
  | none => .ok (if style = .plain then ofPlain text else .text text)
  | some tag =>
    if tag = coreTag "bool" then
      match bool? text with
      | some b => .ok (.bool b)
      | none => .error ⟨text, "a boolean"⟩
    else if tag = coreTag "int" then
      match integer? text with
      | some n => .ok n
      | none => .error ⟨text, "an integer"⟩
    else if tag = coreTag "float" then
      match float? text with
      | some x => .ok (.float x)
      | none => .error ⟨text, "a float"⟩
    else if tag = coreTag "null" then
      if isNull text then .ok .null else .error ⟨text, "null"⟩
    else if tag.head? = some 0x21 && style = .plain then .ok (ofPlain text)
    else .ok (.text text)

end Scalar

end WorkflowKit.Yaml
