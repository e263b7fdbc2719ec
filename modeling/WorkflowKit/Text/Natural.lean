namespace WorkflowKit.Text

def digitsValue (digits : List Char) : Nat :=
  digits.foldl (fun n c => 10 * n + (c.toNat - 0x30)) 0

/-- The number that a text of digits stands for, after a plus sign or none. -/
def natural? (text : String) : Option Nat :=
  let digits := if text.toList.head? = some '+' then text.toList.drop 1 else text.toList
  if digits.isEmpty || !digits.all Char.isDigit then none else some (digitsValue digits)

end WorkflowKit.Text
