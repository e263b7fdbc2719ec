namespace WorkflowKit.Http

inductive UriFault where
  | empty
  | tooLong
  | badCharacter
  | badAuthority
  | badFormat
  | schemeTooLong
  deriving DecidableEq, Repr

def UriFault.message : UriFault → String
  | empty => "empty string"
  | tooLong => "uri too long"
  | badCharacter => "invalid uri character"
  | badAuthority => "invalid authority"
  | badFormat => "invalid format"
  | schemeTooLong => "scheme too long"

/-- An address. A fragment is not part of it. -/
structure Uri where
  scheme : Option String
  authority : Option String
  path : String
  query : Option String
  deriving DecidableEq, Repr

namespace Uri

def lengthLimit : Nat := 65534

def schemeLimit : Nat := 64

/-- Characters of a path. Some that should be escaped are let through, but no controls. -/
def isPathChar (c : Char) : Bool :=
  let n := c.toNat
  (0x21 ≤ n && n ≤ 0x22) || (0x24 ≤ n && n ≤ 0x3B) || n = 0x3D || (0x40 ≤ n && n ≤ 0x5F) ||
    (0x61 ≤ n && n ≤ 0x7E) || 0x80 ≤ n

def isQueryChar (c : Char) : Bool :=
  let n := c.toNat
  n = 0x21 || (0x24 ≤ n && n ≤ 0x3B) || n = 0x3D || (0x3F ≤ n && n ≤ 0x7E) || 0x80 ≤ n

/-- Characters of an authority, other than the percent sign. -/
def isAuthorityChar (c : Char) : Bool :=
  c.isAlphanum || ['!', '$', '&', '\'', '(', ')', '*', '+', ',', '-', '.', ':', ';', '=', '@', '[',
    ']', '_', '~'].contains c

def isSchemeChar (c : Char) : Bool :=
  c.isAlphanum || c = '+' || c = '-' || c = '.' || c = '~'

def endsAuthority (c : Char) : Bool :=
  c = '/' || c = '?' || c = '#'

/-- The path and the query of a reference, up to a fragment. -/
def parsePath (cs : List Char) : Except UriFault (String × Option String) :=
  let path := cs.takeWhile fun c => c ≠ '?' && c ≠ '#'
  let rest := cs.dropWhile fun c => c ≠ '?' && c ≠ '#'
  if !path.all isPathChar then .error .badCharacter
  else
    match rest with
    | '?' :: others =>
      let query := others.takeWhile (· ≠ '#')
      if !query.all isQueryChar then .error .badCharacter
      else .ok (String.ofList path, some (String.ofList query))
    | _ => .ok (String.ofList path, none)

/-- What is known about an authority while it is read. -/
structure AuthorityScan where
  colons : Nat
  opened : Bool
  closed : Bool
  percent : Bool

/-- Checks the characters of an authority: colons are counted since the last bracket or at sign. -/
def checkAuthority : List Char → AuthorityScan → Except UriFault Unit
  | [], scan =>
    if scan.opened != scan.closed || 1 < scan.colons || scan.percent then .error .badAuthority
    else .ok ()
  | c :: rest, scan =>
    if c = ':' then
      if 8 ≤ scan.colons then .error .badAuthority
      else checkAuthority rest { scan with colons := scan.colons + 1 }
    else if c = '[' then
      if scan.percent || scan.opened then .error .badAuthority
      else checkAuthority rest { scan with opened := true }
    else if c = ']' then
      if !scan.opened || scan.closed then .error .badAuthority
      else checkAuthority rest { scan with closed := true, colons := 0, percent := false }
    else if c = '@' then
      if rest.isEmpty then .error .badAuthority
      else checkAuthority rest { scan with colons := 0, percent := false }
    else if c = '%' then checkAuthority rest { scan with percent := true }
    else if isAuthorityChar c then checkAuthority rest scan
    else .error .badCharacter

/-- Splits the scheme from what follows its two slashes. -/
def splitScheme (cs : List Char) : Except UriFault (Option String × List Char) :=
  let scheme := cs.takeWhile isSchemeChar
  let rest := cs.dropWhile isSchemeChar
  if [':', '/', '/'].isPrefixOf rest then
    if schemeLimit < scheme.length then .error .schemeTooLong
    else
      let lower := String.ofList (scheme.map Char.toLower)
      let scheme := if lower = "http" ∨ lower = "https" then lower else String.ofList scheme
      .ok (some scheme, rest.drop 3)
  else .ok (none, cs)

def parse (text : String) : Except UriFault Uri := do
  if lengthLimit < text.utf8ByteSize then .error .tooLong
  else
    match text.toList with
    | [] => .error .empty
    | ['*'] => .ok ⟨none, none, "*", none⟩
    | '/' :: rest =>
      let (path, query) ← parsePath ('/' :: rest)
      .ok ⟨none, none, path, query⟩
    | cs =>
      let (scheme, rest) ← splitScheme cs
      let authority := rest.takeWhile fun c => !endsAuthority c
      let after := rest.dropWhile fun c => !endsAuthority c
      checkAuthority authority ⟨0, false, false, false⟩
      match scheme with
      | none =>
        if after.isEmpty then .ok ⟨none, some (String.ofList authority), "", none⟩
        else .error .badFormat
      | some scheme =>
        if authority.isEmpty then .error .badFormat
        else
          let (path, query) ← parsePath after
          .ok ⟨some scheme, some (String.ofList authority), path, query⟩

/-- The path with its query, as a request names it. -/
def target (uri : Uri) : String :=
  (if uri.path.isEmpty then "/" else uri.path) ++ (uri.query.map ("?" ++ ·)).getD ""

def sameOrigin (a b : Uri) : Bool :=
  a.scheme = b.scheme && a.authority = b.authority

def directory (path : List Char) : List Char :=
  (path.reverse.dropWhile (· ≠ '/')).reverse

/-- The parts of a path without those that stand for the directory itself or the one above. -/
def withoutDots (parts : List String) : List String :=
  let kept := parts.foldl (fun kept part =>
    if part = "." then kept
    else if part = ".." then kept.drop 1
    else part :: kept) []
  let open? := parts.getLast? = some "." || parts.getLast? = some ".."
  (if open? then "" :: kept else kept).reverse

/-- A path without parts that stand for directories by their place. -/
def normalized (path : String) : String :=
  let parts := (path.toList.splitOn '/').map String.ofList
  match parts with
  | first :: others => "/".intercalate (first :: withoutDots others)
  | [] => path

/-- The address that a reference means when it is found at another address. -/
def resolve (base : Uri) (reference : String) : Option Uri :=
  let text := String.ofList (reference.toList.takeWhile (· ≠ '#'))
  let cs := text.toList
  if cs.isEmpty then some base
  else
    match splitScheme cs with
    | .error _ => none
    | .ok (some _, _) =>
      (parse text).toOption.map fun uri => { uri with path := normalized uri.path }
    | .ok (none, _) =>
      if ['/', '/'].isPrefixOf cs then
        base.scheme.bind fun scheme =>
          (parse (scheme ++ ":" ++ text)).toOption.map fun uri =>
            { uri with path := normalized uri.path }
      else
        match parsePath cs with
        | .error _ => none
        | .ok (path, query) =>
          if path.isEmpty then some { base with query }
          else
            let whole :=
              if path.toList.head? = some '/' then path
              else
                let above := directory base.path.toList
                String.ofList (if above.isEmpty then ['/'] else above) ++ path
            some { base with path := normalized whole, query }

end Uri

end WorkflowKit.Http
