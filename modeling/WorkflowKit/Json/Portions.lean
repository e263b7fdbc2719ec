import WorkflowKit.Json.Value

namespace WorkflowKit.Json

/-- The run of characters, of which the last comes first, if there are any. -/
def runPortion (run : List Char) : List (List Char) :=
  if run.isEmpty then [] else [run.reverse]

/-- The portions of the inside of a quoted text after a run that has not been written yet. -/
def insidePortions (run : List Char) : List Char → List (List Char)
  | [] => runPortion run
  | c :: cs =>
    if escaped c = [c] then insidePortions (c :: run) cs
    else runPortion run ++ escaped c :: insidePortions [] cs

/-- Characters that stand for themselves are written run by run, and each escape between the runs is
a portion of its own. -/
def quotedPortions (cs : List Char) : List (List Char) :=
  ['"'] :: insidePortions [] cs ++ [['"']]

mutual

/-- The portions in which the text of a value is written, in their order. Marks, words and numbers
are a portion each. -/
def portions : Json → List (List Char)
  | null => [['n', 'u', 'l', 'l']]
  | bool true => [['t', 'r', 'u', 'e']]
  | bool false => [['f', 'a', 'l', 's', 'e']]
  | number value => [numberChars value]
  | text value => quotedPortions value.toList
  | array [] => [['['], [']']]
  | array (item :: items) => ['['] :: portions item ++ itemPortions items
  | object [] => [['\x7b'], ['\x7d']]
  | object (entry :: members) => ['\x7b'] :: entryPortions entry ++ memberPortions members

/-- The items after the first one, and the end of the array. -/
def itemPortions : List Json → List (List Char)
  | [] => [[']']]
  | item :: items => [','] :: portions item ++ itemPortions items

def entryPortions : String × Json → List (List Char)
  | (name, value) => quotedPortions name.toList ++ [':'] :: portions value

/-- The members after the first one, and the end of the object. -/
def memberPortions : List (String × Json) → List (List Char)
  | [] => [['\x7d']]
  | entry :: members => [','] :: entryPortions entry ++ memberPortions members

end

end WorkflowKit.Json
