import WorkflowKit.Yaml.Token.Stream

namespace WorkflowKit.Yaml

/-- A node as it is written. -/
inductive Tree where
  | scalar (mark : Mark) (anchor : Option Nat) (tag : Option Octets) (style : Style)
      (text : String)
  | sequence (mark : Mark) (anchor : Option Nat) (tag : Option Octets) (items : List Tree)
  | mapping (mark : Mark) (anchor : Option Nat) (tag : Option Octets) (entries : List (Tree × Tree))
  | reference (mark : Mark) (anchor : Nat)
  deriving Repr

namespace Tree

/-- A node of which nothing is written. -/
def void (mark : Mark) : Tree :=
  scalar mark none none .plain ""

/-- The mark, the number of an anchor and the tag that stand before a node. -/
structure Properties where
  mark : Mark
  anchor : Option Nat
  tag : Option Octets

/-- What is left to read, and what is known from before. -/
structure Rest where
  tokens : List Token
  /-- The number that each name of an anchor has at present. -/
  anchors : List (List Char × Nat)
  /-- The text that each handle of a tag stands for. -/
  handles : List (List Char × Octets)

/-- A reader of tokens, without a result when they are out of order. -/
abbrev Reading := StateT Rest Option

def peek : Reading Token := do
  match (← get).tokens with
  | token :: _ => pure token
  | [] => failure

def advance : Reading Unit :=
  modify fun rest => { rest with tokens := rest.tokens.drop 1 }

/-- Passes the next token if it is of a kind, and tells whether it was. -/
def accept (kind : TokenKind) : Reading Bool := do
  if (← peek).kind = kind then
    advance
    pure true
  else pure false

/-- Passes the next token, which must be of a kind. -/
def expect (kind : TokenKind) : Reading Unit := do
  if !(← accept kind) then failure

/-- Holds when the next token is of one of some kinds. -/
def atOneOf (kinds : List TokenKind) : Reading Bool := do
  pure (kinds.contains (← peek).kind)

/-- Numbers an anchor by the names known before it. A name that is used again gets a new number. -/
def number (name : List Char) : Reading Nat := do
  let rest ← get
  let n := rest.anchors.length
  set { rest with anchors := (name, n) :: rest.anchors.filter (·.1 ≠ name) }
  pure n

/-- The whole tag for a handle and what stands after it. -/
def wholeTag (handle : List Char) (suffix : Octets) : Reading Octets := do
  if handle.isEmpty then pure suffix
  else
    match (← get).handles.lookup handle with
    | some stem => pure (stem ++ suffix)
    | none => failure

def anchorName? : Reading (Option (List Char)) := do
  match (← peek).kind with
  | .anchor name =>
    advance
    pure (some name)
  | _ => pure none

def tag? : Reading (Option Octets) := do
  match (← peek).kind with
  | .tag handle suffix =>
    advance
    return some (← wholeTag handle suffix)
  | _ => pure none

/-- Reads the anchor and the tag of a node, in either order. -/
def properties : Reading (Properties × Bool) := do
  let mark := (← peek).start
  let first ← anchorName?
  let tag ← tag?
  let name ← if first.isNone && tag.isSome then anchorName? else pure first
  let anchor ← name.mapM number
  pure (⟨mark, anchor, tag⟩, name.isSome || tag.isSome)

/-- A node that has only an anchor or a tag. -/
def blank (given : Properties) (any : Bool) : Reading Tree :=
  if any then pure (scalar given.mark given.anchor given.tag .plain "") else failure

mutual

/-- Reads a node. In brackets no block may begin; after a key of a block mapping a sequence needs no
further indentation. -/
def node : Nat → Bool → Bool → Reading Tree
  | 0, _, _ => failure
  | fuel + 1, block, level => do
    let token ← peek
    if let .reference name := token.kind then
      match (← get).anchors.lookup name with
      | some n =>
        advance
        pure (reference token.start n)
      | none => failure
    else
      let (given, any) ← properties
      let next ← peek
      if level && next.kind = .blockEntry then
        return sequence given.mark given.anchor given.tag (← levelItems fuel)
      match next.kind with
      | .scalar style text =>
        advance
        pure (scalar given.mark given.anchor given.tag style (String.ofList text))
      | .flowSequenceStart =>
        advance
        return sequence given.mark given.anchor given.tag (← flowItems fuel true)
      | .flowMappingStart =>
        advance
        return mapping given.mark given.anchor given.tag (← flowEntries fuel true)
      | .blockSequenceStart =>
        if block then
          advance
          return sequence given.mark given.anchor given.tag (← blockItems fuel)
        else blank given any
      | .blockMappingStart =>
        if block then
          advance
          return mapping given.mark given.anchor given.tag (← blockEntries fuel)
        else blank given any
      | _ => blank given any

/-- Reads a node, unless a token of one of some kinds is next. -/
def nodeUnless : Nat → Bool → Bool → List TokenKind → Mark → Reading Tree
  | 0, _, _, _, _ => failure
  | fuel + 1, block, level, kinds, mark => do
    if ← atOneOf kinds then pure (void mark) else node fuel block level

def blockItems : Nat → Reading (List Tree)
  | 0 => failure
  | fuel + 1 => do
    let token ← peek
    if ← accept .blockEntry then
      let item ← nodeUnless fuel true false [.blockEntry, .blockEnd] token.stop
      return item :: (← blockItems fuel)
    else
      expect .blockEnd
      pure []

/-- Reads the items of a sequence that stands at the indentation of the mapping around it. -/
def levelItems : Nat → Reading (List Tree)
  | 0 => failure
  | fuel + 1 => do
    let token ← peek
    if ← accept .blockEntry then
      let item ←
        nodeUnless fuel true false [.blockEntry, .key, .value, .blockEnd] token.stop
      return item :: (← levelItems fuel)
    else pure []

def blockEntries : Nat → Reading (List (Tree × Tree))
  | 0 => failure
  | fuel + 1 => do
    let token ← peek
    if ← accept .key then
      let name ← nodeUnless fuel true true [.key, .value, .blockEnd] token.stop
      let next ← peek
      let value ←
        if ← accept .value then nodeUnless fuel true true [.key, .value, .blockEnd] next.stop
        else pure (void next.start)
      return (name, value) :: (← blockEntries fuel)
    else
      expect .blockEnd
      pure []

def flowItems : Nat → Bool → Reading (List Tree)
  | 0, _ => failure
  | fuel + 1, first => do
    if ← accept .flowSequenceEnd then return []
    if !first then expect .flowEntry
    let token ← peek
    if ← accept .key then
      let item ← flowPair fuel token.start
      return item :: (← flowItems fuel false)
    else if ← accept .flowSequenceEnd then pure []
    else
      let item ← node fuel false false
      return item :: (← flowItems fuel false)

/-- Reads a mapping of one entry that stands in a sequence without brackets of its own, after the
indicator of its key. A key of which nothing is written takes the token after it with it. -/
def flowPair : Nat → Mark → Reading Tree
  | 0, _ => failure
  | fuel + 1, mark => do
    let token ← peek
    let name ←
      if ← atOneOf [.value, .flowEntry, .flowSequenceEnd] then
        advance
        pure (void token.stop)
      else node fuel false false
    let next ← peek
    let value ←
      if ← accept .value then
        nodeUnless fuel false false [.flowEntry, .flowSequenceEnd] (← peek).start
      else pure (void next.start)
    pure (mapping mark none none [(name, value)])

def flowEntries : Nat → Bool → Reading (List (Tree × Tree))
  | 0, _ => failure
  | fuel + 1, first => do
    if ← accept .flowMappingEnd then return []
    if !first then expect .flowEntry
    if ← accept .key then
      let name ←
        nodeUnless fuel false false [.value, .flowEntry, .flowMappingEnd] (← peek).start
      let next ← peek
      let value ←
        if ← accept .value then
          nodeUnless fuel false false [.flowEntry, .flowMappingEnd] (← peek).start
        else pure (void next.start)
      return (name, value) :: (← flowEntries fuel false)
    else if ← accept .flowMappingEnd then pure []
    else
      let name ← node fuel false false
      let next ← peek
      return (name, void next.start) :: (← flowEntries fuel false)

end

/-- Handles that stand for the same text in every document, unless it says otherwise. -/
def usualHandles : List (List Char × Octets) :=
  [(['!'], Octets.ofChars ['!']), (['!', '!'], Octets.ofText "tag:yaml.org,2002:")]

/-- Reads the directives before a document: a version at most once, and each handle at most once. -/
def directives : Nat → Bool → List (List Char × Octets) → Reading (List (List Char × Octets))
  | 0, _, _ => failure
  | fuel + 1, versioned, handles => do
    match (← peek).kind with
    | .version major minor =>
      if versioned || major ≠ 1 || (minor ≠ 1 && minor ≠ 2) then failure
      else
        advance
        directives fuel true handles
    | .tagHandle handle stem =>
      if (handles.lookup handle).isSome then failure
      else
        advance
        directives fuel versioned (handles ++ [(handle, stem)])
    | _ => pure handles

/-- Reads the node of a document, with the directives before it. -/
def root (fuel : Nat) : Reading Tree := do
  let token ← peek
  if token.kind = .documentStart || token.kind.isDirective then
    let handles ← directives fuel false []
    modify fun rest => { rest with handles := handles ++ usualHandles }
    expect .documentStart
    let next ← peek
    if next.kind.isDirective || [.documentStart, .documentEnd, .streamEnd].contains next.kind then
      pure (void next.start)
    else node fuel true false
  else
    modify fun rest => { rest with handles := usualHandles }
    node fuel true false

/-- Passes the marks at the end of a document, after which the text must end. -/
def ending : Nat → Reading Unit
  | 0 => failure
  | fuel + 1 => do
    if ← accept .documentEnd then ending fuel else expect .streamEnd

def document (fuel : Nat) : Reading (Option Tree) := do
  if ← accept .streamEnd then pure none
  else
    let tree ← root fuel
    ending fuel
    pure (some tree)

/-- The document in the tokens of a text, `none` if the text is malformed. -/
def ofTokens? (tokens : List Token) : Option (Option Tree) := do
  let rest : Rest := ⟨tokens, [], []⟩
  let (root, _) ← (document (4 * tokens.length + 8)).run rest
  pure root

end Tree

end WorkflowKit.Yaml
