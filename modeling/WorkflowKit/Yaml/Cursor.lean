namespace WorkflowKit.Yaml

/-- A place by what stands before it. -/
structure Mark where
  /-- The number of octets before it. -/
  offset : Nat
  /-- The number of lines before its own. -/
  line : Nat
  /-- The number of characters before it on its line. -/
  column : Nat
  deriving DecidableEq, Repr

def isBreak (c : Char) : Bool :=
  c = '\n' || c = '\r' || c = '\u0085' || c = '\u2028' || c = '\u2029'

def isSpace (c : Char) : Bool :=
  c = ' ' || c = '\t'

/-- Letters, digits, the hyphen and the underscore. -/
def isWordChar (c : Char) : Bool :=
  c.isAlphanum || c = '-' || c = '_'

def isAllowed (c : Char) : Bool :=
  let n := c.toNat
  n = 0x09 || n = 0x0A || n = 0x0D || (0x20 ≤ n && n ≤ 0x7E) || n = 0x85 ||
    (0xA0 ≤ n && n ≤ 0xD7FF) || (0xE000 ≤ n && n ≤ 0xFFFD) || 0x10000 ≤ n

/-- Holds at the end of the text, at a blank and at the end of a line. -/
def atGap : List Char → Bool
  | [] => true
  | c :: _ => isSpace c || isBreak c

/-- A place in a text: the characters that are left, and where they stand. -/
structure Cursor where
  rest : List Char
  mark : Mark

namespace Cursor

def start (cs : List Char) : Cursor :=
  ⟨cs, ⟨0, 0, 0⟩⟩

def peek (cursor : Cursor) : Option Char :=
  cursor.rest.head?

def at? (cursor : Cursor) (c : Char) : Bool :=
  cursor.rest.head? = some c

def atWord (cursor : Cursor) (word : List Char) : Bool :=
  word.isPrefixOf cursor.rest && atGap (cursor.rest.drop word.length)

/-- Holds at the start of a line that separates documents. -/
def atDocumentMark (cursor : Cursor) : Bool :=
  cursor.mark.column = 0 &&
    (cursor.atWord ['-', '-', '-'] || cursor.atWord ['.', '.', '.'])

def skip (cursor : Cursor) (count : Nat) : Cursor :=
  let ⟨rest, mark⟩ := cursor
  let offset := (rest.take count).foldl (fun offset c => offset + c.utf8Size) mark.offset
  ⟨rest.drop count, ⟨offset, mark.line, mark.column + count⟩⟩

def skipWhile (cursor : Cursor) (p : Char → Bool) : Cursor :=
  cursor.skip (cursor.rest.takeWhile p).length

def skipToBreak (cursor : Cursor) : Cursor :=
  cursor.skipWhile fun c => !isBreak c

/-- Passes the end of a line, if one is next. Returns the line break that it stands for. -/
def skipBreak (cursor : Cursor) : List Char × Cursor :=
  let ⟨rest, mark⟩ := cursor
  match rest with
  | '\r' :: '\n' :: after => (['\n'], ⟨after, ⟨mark.offset + 2, mark.line + 1, 0⟩⟩)
  | c :: after =>
    if isBreak c then
      let read := if c = '\u2028' || c = '\u2029' then c else '\n'
      ([read], ⟨after, ⟨mark.offset + c.utf8Size, mark.line + 1, 0⟩⟩)
    else ([], cursor)
  | [] => ([], cursor)

end Cursor

end WorkflowKit.Yaml
