import WorkflowKit.Text.Octets

namespace WorkflowKit.Text

def upperDigit (n : Nat) : Char :=
  Char.ofNat (if n < 10 then 0x30 + n else 0x37 + n)

def percentOctet (b : UInt8) : List Char :=
  ['%', upperDigit (b.toNat / 16), upperDigit (b.toNat % 16)]

def isPlainOctet (b : UInt8) : Bool :=
  let n := b.toNat
  (0x30 ≤ n && n ≤ 0x39) || (0x41 ≤ n && n ≤ 0x5A) || (0x61 ≤ n && n ≤ 0x7A)

/-- A text as one part of a path: all but letters and digits is escaped. -/
def pathPart (s : String) : String :=
  String.ofList ((Octets.ofText s).flatMap fun b =>
    if isPlainOctet b then [Char.ofNat b.toNat] else percentOctet b)

/-- Octets that a form keeps besides letters and digits: the asterisk, the hyphen, the point and the
underscore. -/
def isFormOctet (b : UInt8) : Bool :=
  isPlainOctet b || b = 0x2A || b = 0x2D || b = 0x2E || b = 0x5F

/-- A text as a value in a form: a space becomes a plus sign. -/
def formValue (s : String) : String :=
  String.ofList ((Octets.ofText s).flatMap fun b =>
    if isFormOctet b then [Char.ofNat b.toNat]
    else if b = 0x20 then ['+']
    else percentOctet b)

end WorkflowKit.Text
