namespace WorkflowKit.Text

/-- The pieces of a text between the separators. The empty text has one empty piece. -/
def pieces (separator : Char) (s : String) : List String :=
  (s.toList.splitOn separator).map String.ofList

/-- Puts texts together with a separator between neighbours. -/
def joined (separator : Char) (parts : List String) : String :=
  String.ofList ([separator].intercalate (parts.map String.toList))

/-- Removes one carriage return from the end. -/
def withoutReturn (cs : List Char) : List Char :=
  if cs.getLast? = some '\r' then cs.dropLast else cs

/-- The lines of a text. A line ends with LF or CRLF; what follows the last ending is a line only
if it is not empty, and keeps a carriage return at its end. -/
def lines (s : String) : List String :=
  let parts := s.toList.splitOn '\n'
  let ended := parts.dropLast.map withoutReturn
  let last := parts.getLast?.getD []
  (if last.isEmpty then ended else ended ++ [last]).map String.ofList

/-- Holds when `needle` occurs in the text as consecutive characters. -/
def occursIn (needle : List Char) : List Char → Bool
  | [] => needle.isEmpty
  | c :: rest => needle.isPrefixOf (c :: rest) || occursIn needle rest

/-- Removes every copy of a character from the end. -/
def withoutTrailing (c : Char) (s : String) : String :=
  String.ofList (s.toList.reverse.dropWhile (· == c)).reverse

end WorkflowKit.Text
