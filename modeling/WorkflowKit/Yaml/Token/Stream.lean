import WorkflowKit.Yaml.Token.Tag

namespace WorkflowKit.Yaml

/-- A place where a key without its own indicator may begin. -/
structure KeyPlace where
  /-- Holds when nothing but a key can stand there. -/
  required : Bool
  /-- The number of tokens before it. -/
  position : Nat
  mark : Mark

/-- What is known in the midst of a text. -/
structure Reader where
  cursor : Cursor
  /-- The tokens so far, the last one first. -/
  tokens : List Token
  /-- The number of tokens so far. -/
  count : Nat
  /-- The column of the innermost block, and of those around it. -/
  indent : Int
  outer : List Int
  keyAllowed : Bool
  /-- The possible key at each bracket level, the innermost first. -/
  keys : List (Option KeyPlace)

namespace Reader

def start (cs : List Char) : Reader :=
  ⟨.start cs, [], 0, -1, [], true, [none]⟩

def inFlow (reader : Reader) : Bool :=
  1 < reader.keys.length

def push (reader : Reader) (token : Token) : Reader :=
  { reader with tokens := token :: reader.tokens, count := reader.count + 1 }

/-- Puts a token in a place among the tokens, given the number of those before it. -/
def pushAt (reader : Reader) (position : Nat) (token : Token) : Reader :=
  { reader with
    tokens := reader.tokens.insertIdx (reader.count - position) token, count := reader.count + 1 }

/-- Adds a token that ends at the given cursor, and moves there. -/
def take (reader : Reader) (kind : TokenKind) (after : Cursor) : Reader :=
  { reader.push ⟨kind, reader.cursor.mark, after.mark⟩ with cursor := after }

/-- Adds a token of some characters. -/
def takeChars (reader : Reader) (kind : TokenKind) (count : Nat) : Reader :=
  reader.take kind (reader.cursor.skip count)

/-- Opens a block at a column, if it is further to the right than the innermost one. -/
def openBlock (reader : Reader) (column position : Nat) (kind : TokenKind) (mark : Mark) : Reader :=
  if reader.inFlow || column ≤ reader.indent then reader
  else
    { reader.pushAt position ⟨kind, mark, mark⟩ with
      indent := column, outer := reader.indent :: reader.outer }

/-- Closes the blocks to the right of a column, given the columns of those around the innermost. -/
def closeOuter (column : Int) : List Int → Reader → Reader
  | [], reader => reader
  | outer :: others, reader =>
    if column < reader.indent then
      let mark := reader.cursor.mark
      closeOuter column others
        { reader.push ⟨.blockEnd, mark, mark⟩ with indent := outer, outer := others }
    else reader

def closeBlocks (reader : Reader) (column : Int) : Reader :=
  if reader.inFlow then reader else closeOuter column reader.outer reader

/-- The largest number of octets between the start of a key and the colon after it. -/
def keyLimit : Nat := 1024

/-- Gives up possible keys that are on an earlier line or too far back. -/
def dropStaleKeys (reader : Reader) : Option Reader := do
  let mark := reader.cursor.mark
  let keys ← reader.keys.mapM fun key =>
    match key with
    | some place =>
      if place.mark.line < mark.line ∨ place.mark.offset + keyLimit < mark.offset then
        if place.required then none else some none
      else some (some place)
    | none => some none
  some { reader with keys }

def dropKey (reader : Reader) : Option Reader :=
  match reader.keys with
  | some place :: others =>
    if place.required then none else some { reader with keys := none :: others }
  | _ => some reader

def noteKey (reader : Reader) : Option Reader :=
  if reader.keyAllowed then do
    let mark := reader.cursor.mark
    let required := !reader.inFlow && reader.indent = mark.column
    let reader ← reader.dropKey
    some { reader with keys := some ⟨required, reader.count, mark⟩ :: reader.keys.drop 1 }
  else some reader

/-- Passes blanks, comments and line breaks, and a byte order mark at the start of a line. After a
line break a key may begin. -/
def skipGap : Nat → Reader → Reader
  | 0, reader => reader
  | fuel + 1, reader =>
    let cursor := reader.cursor
    let cursor := if cursor.mark.column = 0 && cursor.at? '\uFEFF' then cursor.skip 1 else cursor
    let tabs := reader.inFlow || !reader.keyAllowed
    let cursor := cursor.skipWhile fun c => c = ' ' || (tabs && c = '\t')
    let cursor := if cursor.at? '#' then cursor.skipToBreak else cursor
    if cursor.peek.any isBreak then
      skipGap fuel { reader with
        cursor := cursor.skipBreak.2, keyAllowed := reader.keyAllowed || !reader.inFlow }
    else { reader with cursor }

/-- Ends all blocks, as a directive or the end of a document does. -/
def endBlocks (reader : Reader) : Option Reader := do
  let reader ← (reader.closeBlocks (-1)).dropKey
  some { reader with keyAllowed := false }

def readEnd (reader : Reader) : Option Reader := do
  let mark := reader.cursor.mark
  let mark := if mark.column = 0 then mark else { mark with line := mark.line + 1, column := 0 }
  let reader ← ({ reader with cursor := { reader.cursor with mark } }).endBlocks
  some (reader.takeChars .streamEnd 0)

def readDirectiveLine (reader : Reader) : Option Reader := do
  let reader ← reader.endBlocks
  let (kind, after) ← readDirective (reader.cursor.skip 1)
  some (reader.take kind after)

def readDocumentMark (reader : Reader) : Option Reader := do
  let reader ← reader.endBlocks
  let kind := if reader.cursor.at? '-' then TokenKind.documentStart else .documentEnd
  some (reader.takeChars kind 3)

def openFlow (reader : Reader) (kind : TokenKind) : Option Reader := do
  let reader ← reader.noteKey
  some { reader.takeChars kind 1 with keyAllowed := true, keys := none :: reader.keys }

def closeFlow (reader : Reader) (kind : TokenKind) : Option Reader := do
  let reader ← reader.dropKey
  let keys := if reader.inFlow then reader.keys.drop 1 else reader.keys
  some { reader.takeChars kind 1 with keyAllowed := false, keys }

def readFlowEntry (reader : Reader) : Option Reader := do
  let reader ← reader.dropKey
  some { reader.takeChars .flowEntry 1 with keyAllowed := true }

def readBlockEntry (reader : Reader) : Option Reader := do
  if !reader.inFlow && !reader.keyAllowed then none
  else
    let mark := reader.cursor.mark
    let reader ← (reader.openBlock mark.column reader.count .blockSequenceStart mark).dropKey
    some { reader.takeChars .blockEntry 1 with keyAllowed := true }

def readKey (reader : Reader) : Option Reader := do
  if !reader.inFlow && !reader.keyAllowed then none
  else
    let mark := reader.cursor.mark
    let reader ← (reader.openBlock mark.column reader.count .blockMappingStart mark).dropKey
    some { reader.takeChars .key 1 with keyAllowed := !reader.inFlow }

def readValue (reader : Reader) : Option Reader :=
  match reader.keys with
  | some place :: others =>
    let reader := reader.pushAt place.position ⟨.key, place.mark, place.mark⟩
    let reader := reader.openBlock place.mark.column place.position .blockMappingStart place.mark
    some { reader.takeChars .value 1 with keyAllowed := false, keys := none :: others }
  | _ =>
    if !reader.inFlow && !reader.keyAllowed then none
    else
      let mark := reader.cursor.mark
      let reader := reader.openBlock mark.column reader.count .blockMappingStart mark
      some { reader.takeChars .value 1 with keyAllowed := !reader.inFlow }

/-- Reads an alias or an anchor. -/
def readName (reader : Reader) (kind : List Char → TokenKind) : Option Reader := do
  let reader ← reader.noteKey
  let (name, after) ← readAnchor (reader.cursor.skip 1)
  some { reader.take (kind name) after with keyAllowed := false }

def readTagToken (reader : Reader) : Option Reader := do
  let reader ← reader.noteKey
  let (handle, suffix, after) ← readTag reader.inFlow reader.cursor
  some { reader.take (.tag handle suffix) after with keyAllowed := false }

def readBlockScalar (reader : Reader) (literal : Bool) : Option Reader := do
  let reader ← reader.dropKey
  let (text, after) ← readBlock literal reader.indent (reader.cursor.skip 1)
  some { reader.take (.scalar .block text) after with keyAllowed := true }

def readQuotedScalar (reader : Reader) (single : Bool) : Option Reader := do
  let reader ← reader.noteKey
  let cursor := reader.cursor.skip 1
  let (text, after) ← quotedWords single (cursor.rest.length + 1) [] cursor
  some { reader.take (.scalar .quoted text) after with keyAllowed := false }

def readPlainScalar (reader : Reader) : Option Reader := do
  let reader ← reader.noteKey
  let cursor := reader.cursor
  let (text, stop, after, broken) ←
    plainWords reader.inFlow (reader.indent + 1).toNat (cursor.rest.length + 1) [] Gap.none cursor
      cursor
  let token : Token := ⟨.scalar .plain text, cursor.mark, stop.mark⟩
  some { reader.push token with cursor := after, keyAllowed := broken }

/-- Characters that begin no plain scalar. -/
def isIndicator (c : Char) : Bool :=
  ['-', '?', ':', ',', '[', ']', '\x7b', '\x7d', '#', '&', '*', '!', '|', '>', '\'', '"', '%', '@',
    '\x60'].contains c

/-- Reads what begins at the cursor, after blanks have been passed. -/
def readNext (reader : Reader) : Option Reader :=
  match reader.cursor.rest with
  | [] => reader.readEnd
  | c :: rest =>
    let gap := atGap rest
    if reader.cursor.mark.column = 0 && c = '%' then reader.readDirectiveLine
    else if reader.cursor.atDocumentMark then reader.readDocumentMark
    else if c = '[' then reader.openFlow .flowSequenceStart
    else if c = '\x7b' then reader.openFlow .flowMappingStart
    else if c = ']' then reader.closeFlow .flowSequenceEnd
    else if c = '\x7d' then reader.closeFlow .flowMappingEnd
    else if c = ',' then reader.readFlowEntry
    else if c = '-' && gap then reader.readBlockEntry
    else if c = '?' && (reader.inFlow || gap) then reader.readKey
    else if c = ':' && (reader.inFlow || gap) then reader.readValue
    else if c = '*' then reader.readName .reference
    else if c = '&' then reader.readName .anchor
    else if c = '!' then reader.readTagToken
    else if c = '|' && !reader.inFlow then reader.readBlockScalar true
    else if c = '>' && !reader.inFlow then reader.readBlockScalar false
    else if c = '\'' then reader.readQuotedScalar true
    else if c = '"' then reader.readQuotedScalar false
    else if !isIndicator c && !isSpace c || c = '-' ||
        (!reader.inFlow && (c = '?' || c = ':')) then reader.readPlainScalar
    else none

/-- Reads all tokens. That a scalar is the key of a mapping is only known when the colon after it
is reached: until then its place among the tokens is kept, and the key token is put there
afterwards. -/
def readAll : Nat → Reader → Option (List Token)
  | 0, _ => none
  | fuel + 1, reader => do
    let reader := skipGap (reader.cursor.rest.length + 1) reader
    let reader ← reader.dropStaleKeys
    let reader := reader.closeBlocks reader.cursor.mark.column
    let ended := reader.cursor.rest.isEmpty
    let reader ← reader.readNext
    if ended then some reader.tokens.reverse else readAll fuel reader

end Reader

/-- The tokens in the characters of a text, nothing if it is malformed. -/
def tokens? (cs : List Char) : Option (List Token) :=
  if cs.all isAllowed then (Reader.start cs).readAll (cs.length + 2) else none

end WorkflowKit.Yaml
