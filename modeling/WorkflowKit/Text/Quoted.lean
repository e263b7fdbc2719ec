import WorkflowKit.Text.Hidden

namespace WorkflowKit.Text

def hexDigits (n : Nat) : List Char :=
  Nat.toDigits 16 n

/-- A character between double quotes: the quote, the backslash and the common controls have short
forms, other hidden characters are written by their number. -/
def quotedChar (c : Char) : List Char :=
  if c = '\x00' then ['\\', '0']
  else if c = '\t' then ['\\', 't']
  else if c = '\n' then ['\\', 'n']
  else if c = '\r' then ['\\', 'r']
  else if c = '"' then ['\\', '"']
  else if c = '\\' then ['\\', '\\']
  else if isHidden c then ['\\', 'u', '{'] ++ hexDigits c.toNat ++ ['}']
  else [c]

def quoted (s : String) : String :=
  String.ofList ('"' :: s.toList.flatMap quotedChar ++ ['"'])

end WorkflowKit.Text
