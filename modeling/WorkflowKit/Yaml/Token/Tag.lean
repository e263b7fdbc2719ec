import WorkflowKit.Yaml.Token.Scalar

namespace WorkflowKit.Yaml

/-- Characters that may follow the name of an anchor at once. -/
def followsAnchor (rest : List Char) : Bool :=
  atGap rest || rest.head?.any fun c =>
    c = '?' || c = ':' || c = ',' || c = ']' || c = '\x7d' || c = '%' || c = '@' || c = '\x60'

def readAnchor (cursor : Cursor) : Option (List Char × Cursor) :=
  let name := cursor.rest.takeWhile isWordChar
  let after := cursor.skip name.length
  if name.isEmpty || !followsAnchor after.rest then none else some (name, after)

/-- Characters of a tag. Commas and square brackets only stand in directives and verbatim tags. -/
def isTagChar (verbatim : Bool) (c : Char) : Bool :=
  isWordChar c || [';', '/', '?', ':', '@', '&', '=', '+', '$', '.', '%', '!', '~', '*', '\'',
    '(', ')'].contains c || (verbatim && (c = ',' || c = '[' || c = ']'))

/-- The number of octets of a character, given the first one. -/
def widthOfLead (octet : Nat) : Option Nat :=
  if octet < 0x80 then some 1
  else if octet / 0x20 = 6 then some 2
  else if octet / 0x10 = 14 then some 3
  else if octet / 0x08 = 30 then some 4
  else none

/-- Reads octets that are written as a percent sign and two digits. The first tells how many there
are. -/
def readEscapedOctets : Nat → Option Nat → Cursor → Option (Octets × Cursor)
  | 0, _, _ => none
  | fuel + 1, missing, cursor =>
    if missing = some 0 then some ([], cursor)
    else do
      let octet ← if cursor.at? '%' then hexNumber 2 (cursor.rest.drop 1) else none
      let missing ←
        match missing with
        | none => widthOfLead octet
        | some n => if octet / 0x40 = 2 then some n else none
      let (octets, after) ← readEscapedOctets fuel (some (missing - 1)) (cursor.skip 3)
      some (octet.toUInt8 :: octets, after)

def readTagChars (verbatim : Bool) : Nat → Cursor → Option (Octets × Cursor)
  | 0, _ => none
  | fuel + 1, cursor =>
    match cursor.peek with
    | none => some ([], cursor)
    | some c =>
      if !isTagChar verbatim c then some ([], cursor)
      else do
        let (first, next) ←
          if c = '%' then readEscapedOctets 5 none cursor
          else some (String.utf8EncodeChar c, cursor.skip 1)
        let (others, after) ← readTagChars verbatim fuel next
        some (first ++ others, after)

/-- Reads the characters of a tag, at least one. -/
def readTagText (verbatim : Bool) (cursor : Cursor) : Option (Octets × Cursor) := do
  let (octets, after) ← readTagChars verbatim (cursor.rest.length + 1) cursor
  if after.mark.offset = cursor.mark.offset then none else some (octets, after)

/-- Reads a handle: an exclamation mark, and a name with another one if there is one. -/
def readHandle (cursor : Cursor) : Option (List Char × Cursor) :=
  if !cursor.at? '!' then none
  else
    let name := (cursor.rest.drop 1).takeWhile isWordChar
    let after := cursor.skip (name.length + 1)
    if after.at? '!' then some ('!' :: name ++ ['!'], after.skip 1) else some ('!' :: name, after)

/-- Reads a tag: its handle, and what stands after it. A verbatim tag has no handle. -/
def readTag (inFlow : Bool) (cursor : Cursor) : Option (List Char × Octets × Cursor) := do
  let (handle, suffix, after) ←
    if cursor.rest.drop 1 |>.head? |>.any (· = '<') then do
      let (suffix, after) ← readTagText true (cursor.skip 2)
      if after.at? '>' then some ([], suffix, after.skip 1) else none
    else do
      let (handle, next) ← readHandle cursor
      if 2 ≤ handle.length ∧ handle.getLast? = some '!' then
        let (suffix, after) ← readTagText false next
        some (handle, suffix, after)
      else
        let (others, after) ← readTagChars false (next.rest.length + 1) next
        let suffix := Octets.ofChars (handle.drop 1) ++ others
        if suffix.isEmpty then some ([], Octets.ofChars ['!'], after)
        else some (['!'], suffix, after)
  if atGap after.rest || (inFlow && after.at? ',') then some (handle, suffix, after) else none

def readVersionPart (cursor : Cursor) : Option (Nat × Cursor) :=
  let digits := cursor.rest.takeWhile Char.isDigit
  if digits.isEmpty || 9 < digits.length then none
  else some (digits.foldl (fun n c => n * 10 + (c.toNat - 0x30)) 0, cursor.skip digits.length)

def readDirective (cursor : Cursor) : Option (TokenKind × Cursor) := do
  let name := cursor.rest.takeWhile isWordChar
  let after := cursor.skip name.length
  if name.isEmpty || !atGap after.rest then none
  else
    let (kind, after) ←
      if name = ['Y', 'A', 'M', 'L'] then do
        let (major, dot) ← readVersionPart (after.skipWhile isSpace)
        if dot.at? '.' then
          let (minor, after) ← readVersionPart (dot.skip 1)
          some (TokenKind.version major minor, after)
        else none
      else if name = ['T', 'A', 'G'] then do
        let (handle, gap) ← readHandle (after.skipWhile isSpace)
        if (handle ≠ ['!'] ∧ (handle.length < 2 ∨ handle.getLast? ≠ some '!')) ∨
            !gap.peek.any isSpace then none
        else
          let (stem, after) ← readTagText true (gap.skipWhile isSpace)
          if atGap after.rest then some (TokenKind.tagHandle handle stem, after) else none
      else none
    let after := after.skipWhile isSpace
    let after := if after.at? '#' then after.skipToBreak else after
    if atGap after.rest then some (kind, after.skipBreak.2) else none

end WorkflowKit.Yaml
