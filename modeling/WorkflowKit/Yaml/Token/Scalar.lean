import WorkflowKit.Yaml.Token

namespace WorkflowKit.Yaml

/-- The blanks and line breaks between two words of a flow scalar. -/
structure Gap where
  /-- The blanks, while no line has ended. -/
  blanks : List Char
  /-- The first line break, and those after it. -/
  lineBreak : Option (List Char)
  more : List Char

namespace Gap

def none : Gap := ⟨[], Option.none, []⟩

/-- What a gap puts between its words. -/
def folded (gap : Gap) : List Char :=
  match gap.lineBreak with
  | Option.none => gap.blanks
  | some first =>
    if first = ['\n'] then if gap.more.isEmpty then [' '] else gap.more
    else first ++ gap.more

def hasBreak (gap : Gap) : Bool :=
  gap.lineBreak.isSome

end Gap

/-- Passes blanks and line breaks. Tabs before the given column are refused after a line break. -/
def readGap (least : Nat) : Nat → Gap → Cursor → Option (Gap × Cursor)
  | 0, _, _ => none
  | fuel + 1, gap, cursor =>
    match cursor.peek with
    | some c =>
      if isSpace c then
        if gap.hasBreak then
          if c = '\t' ∧ cursor.mark.column < least then none
          else readGap least fuel gap (cursor.skip 1)
        else readGap least fuel { gap with blanks := gap.blanks ++ [c] } (cursor.skip 1)
      else if isBreak c then
        let (read, after) := cursor.skipBreak
        match gap.lineBreak with
        | none => readGap least fuel { gap with blanks := [], lineBreak := some read } after
        | some _ => readGap least fuel { gap with more := gap.more ++ read } after
      else some (gap, cursor)
    | none => some (gap, cursor)

def isFlowEnd (c : Char) : Bool :=
  c = ',' || c = '[' || c = ']' || c = '\x7b' || c = '\x7d'

/-- Reads a word of a plain scalar. Inside brackets a colon before a bracket is refused. -/
def plainWord (inFlow : Bool) : List Char → Option (List Char)
  | [] => some []
  | c :: rest =>
    if isSpace c || isBreak c then some []
    else if inFlow && c = ':' && (rest.head?.any fun d => isFlowEnd d || d = '?') then none
    else if c = ':' && atGap rest then some []
    else if inFlow && isFlowEnd c then some []
    else (plainWord inFlow rest).map (c :: ·)

/-- Reads a plain scalar whose further lines are indented to at least the given column. Also tells
whether a line break was passed after its last word. -/
def plainWords (inFlow : Bool) (least : Nat) :
    Nat → List Char → Gap → Cursor → Cursor → Option (List Char × Cursor × Cursor × Bool)
  | 0, _, _, _, _ => none
  | fuel + 1, read, gap, stop, cursor =>
    if cursor.atDocumentMark || cursor.at? '#' then some (read, stop, cursor, gap.hasBreak)
    else do
      let word ← plainWord inFlow cursor.rest
      let after := cursor.skip word.length
      let (read, stop, gap) :=
        if word.isEmpty then (read, stop, gap) else (read ++ gap.folded ++ word, after, Gap.none)
      if after.rest.isEmpty || !atGap after.rest then some (read, stop, after, gap.hasBreak)
      else
        let (gap, next) ← readGap least (after.rest.length + 1) gap after
        if !inFlow && next.mark.column < least then some (read, stop, next, gap.hasBreak)
        else plainWords inFlow least fuel read gap stop next

def escapedChar (c : Char) : Option Char :=
  if c = '0' then some '\x00'
  else if c = 'a' then some '\x07'
  else if c = 'b' then some '\x08'
  else if c = 't' ∨ c = '\t' then some '\t'
  else if c = 'n' then some '\n'
  else if c = 'v' then some '\x0b'
  else if c = 'f' then some '\x0c'
  else if c = 'r' then some '\r'
  else if c = 'e' then some '\x1b'
  else if c = ' ' then some ' '
  else if c = '"' then some '"'
  else if c = '/' then some '/'
  else if c = '\\' then some '\\'
  else if c = 'N' then some '\u0085'
  else if c = '_' then some '\u00a0'
  else if c = 'L' then some '\u2028'
  else if c = 'P' then some '\u2029'
  else none

/-- The number of digits that follow the letter of a numbered escape. -/
def escapeWidth (c : Char) : Option Nat :=
  if c = 'x' then some 2 else if c = 'u' then some 4 else if c = 'U' then some 8 else none

def hexDigit (c : Char) : Option Nat :=
  if c.isDigit then some (c.toNat - 0x30)
  else if 'a' ≤ c ∧ c ≤ 'f' then some (c.toNat - 0x57)
  else if 'A' ≤ c ∧ c ≤ 'F' then some (c.toNat - 0x37)
  else none

/-- The number that all the digits write, if there are as many as asked for. -/
def hexNumber (width : Nat) (digits : List Char) : Option Nat :=
  if digits.length < width then none
  else (digits.take width).foldlM (fun n c => (hexDigit c).map (n * 16 + ·)) 0

/-- Reads an escape after its backslash: its character, and the number of characters it takes. -/
def readEscape : List Char → Option (Char × Nat)
  | [] => none
  | c :: rest =>
    match escapedChar c with
    | some d => some (d, 1)
    | none => do
      let width ← escapeWidth c
      let number ← hexNumber width rest
      if h : number.isValidChar then some (Char.ofNatAux number h, width + 1) else none

/-- Reads the characters of a quoted scalar up to a gap or the closing quote. Also tells whether an
escaped line break ended the word. -/
def quotedWord (single : Bool) : Nat → Cursor → Option (List Char × Cursor × Bool)
  | 0, _ => none
  | fuel + 1, cursor =>
    match cursor.rest with
    | [] => some ([], cursor, false)
    | c :: rest =>
      if isSpace c || isBreak c then some ([], cursor, false)
      else if single && c = '\'' && rest.head? = some '\'' then
        (quotedWord single fuel (cursor.skip 2)).map fun (cs, r) => ('\'' :: cs, r)
      else if c = (if single then '\'' else '"') then some ([], cursor, false)
      else if !single && c = '\\' then
        if (rest.head?.any isBreak) then some ([], (cursor.skip 1).skipBreak.2, true)
        else do
          let (d, taken) ← readEscape rest
          (quotedWord single fuel (cursor.skip (taken + 1))).map fun (cs, r) => (d :: cs, r)
      else (quotedWord single fuel (cursor.skip 1)).map fun (cs, r) => (c :: cs, r)

/-- Reads a quoted scalar after its opening quote. -/
def quotedWords (single : Bool) : Nat → List Char → Cursor → Option (List Char × Cursor)
  | 0, _, _ => none
  | fuel + 1, read, cursor =>
    if cursor.atDocumentMark || cursor.rest.isEmpty then none
    else do
      let (word, after, broken) ← quotedWord single (cursor.rest.length + 1) cursor
      let read := read ++ word
      if after.at? (if single then '\'' else '"') then some (read, after.skip 1)
      else
        let start : Gap := if broken then ⟨[], some [], []⟩ else Gap.none
        let (gap, next) ← readGap 0 (after.rest.length + 1) start after
        quotedWords single fuel (read ++ gap.folded) next

/-- What becomes of the line breaks at the end of a block scalar. -/
inductive Chomping where
  | strip
  | clip
  | keep

/-- Reads the indicators of a block scalar: how it is chomped, and its indentation if given. -/
def readIndicators (cursor : Cursor) : Option (Chomping × Nat × Cursor) :=
  let chomping? (c : Char) : Option Chomping :=
    if c = '+' then some .keep else if c = '-' then some .strip else none
  let digit (cursor : Cursor) : Option (Nat × Cursor) :=
    match cursor.peek with
    | some c =>
      if c = '0' then none
      else if c.isDigit then some (c.toNat - 0x30, cursor.skip 1)
      else some (0, cursor)
    | none => some (0, cursor)
  match cursor.peek.bind chomping? with
  | some chomping => (digit (cursor.skip 1)).map fun (n, after) => (chomping, n, after)
  | none => do
    let (n, after) ← digit cursor
    match if n = 0 then none else after.peek.bind chomping? with
    | some chomping => some (chomping, n, after.skip 1)
    | none => some (.clip, n, after)

/-- Passes empty lines and the indentation of the next line. An indentation of zero is not known
yet. Returns the line breaks passed and the largest column reached. -/
def readMargin (indent : Nat) :
    Nat → List Char → Nat → Cursor → Option (List Char × Nat × Cursor)
  | 0, _, _, _ => none
  | fuel + 1, breaks, widest, cursor =>
    let spaces := (cursor.rest.takeWhile (· = ' ')).length
    let wanted := if indent = 0 then spaces else min spaces (indent - cursor.mark.column)
    let cursor := cursor.skip wanted
    let widest := max widest cursor.mark.column
    if (indent = 0 || cursor.mark.column < indent) && cursor.at? '\t' then none
    else if cursor.peek.any isBreak then
      let (read, after) := cursor.skipBreak
      readMargin indent fuel (breaks ++ read) widest after
    else some (breaks, widest, cursor)

/-- Reads the lines of a block scalar: its text, the last line break, and the breaks after it. -/
def blockLines (literal : Bool) (indent : Nat) :
    Nat → List Char → List Char → List Char → Bool → Cursor →
      Option (List Char × List Char × List Char × Cursor)
  | 0, _, _, _, _, _ => none
  | fuel + 1, read, lineBreak, breaks, afterBlank, cursor =>
    if cursor.mark.column ≠ indent ∨ cursor.rest.isEmpty then
      some (read, lineBreak, breaks, cursor)
    else do
      let blank := cursor.peek.any isSpace
      let read :=
        if !literal && lineBreak = ['\n'] && !afterBlank && !blank then
          read ++ if breaks.isEmpty then [' '] else breaks
        else read ++ lineBreak ++ breaks
      let line := cursor.rest.takeWhile fun c => !isBreak c
      let (lineBreak, next) := (cursor.skip line.length).skipBreak
      let (breaks, _, next) ← readMargin indent (next.rest.length + 1) [] 0 next
      blockLines literal indent fuel (read ++ line) lineBreak breaks blank next

/-- Reads a block scalar after its first character, below a given indentation. -/
def readBlock (literal : Bool) (parent : Int) (cursor : Cursor) : Option (List Char × Cursor) := do
  let (chomping, given, cursor) ← readIndicators cursor
  let cursor := cursor.skipWhile isSpace
  let cursor := if cursor.at? '#' then cursor.skipToBreak else cursor
  if !atGap cursor.rest || cursor.peek.any isSpace then none
  else
    let (_, cursor) := cursor.skipBreak
    let indent := if given = 0 then 0 else (max parent 0).toNat + given
    let (breaks, widest, cursor) ← readMargin indent (cursor.rest.length + 1) [] 0 cursor
    let indent := if indent = 0 then max (max widest (parent + 1).toNat) 1 else indent
    let (read, lineBreak, breaks, cursor) ←
      blockLines literal indent (cursor.rest.length + 1) [] [] breaks false cursor
    match chomping with
    | .strip => some (read, cursor)
    | .clip => some (read ++ lineBreak, cursor)
    | .keep => some (read ++ lineBreak ++ breaks, cursor)

end WorkflowKit.Yaml
