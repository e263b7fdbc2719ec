import WorkflowKit.Failure
import WorkflowKit.GitHub.Call

namespace WorkflowKit.GitHub

/-- Where the interface is found, for which repository, and with which token. -/
structure Access where
  address : String
  repository : Repository
  token : Option String
  deriving DecidableEq, Repr

def usualAddress : String := "https://api.github.com"

def usualRepository : Repository := ⟨"firebase", "firebase-cpp-sdk"⟩

def mediaType : String := "application/vnd.github.v3+json"

/-- A client of the interface for one repository. -/
structure Client where
  /-- The address below which the interface lies. -/
  base : Http.Uri
  /-- The address as it was given, without slashes at its end. -/
  address : String
  repository : Repository
  token : Option String
  deriving DecidableEq, Repr

/-- Characters that a header may hold: all but controls, other than the tab. -/
def isHeaderChar (c : Char) : Bool :=
  c = '\t' || (0x20 ≤ c.toNat && c.toNat ≠ 0x7F)

namespace Client

/-- Makes a client. The address must be one, and the token must fit into a header. -/
def make (access : Access) : Except Failure Client :=
  match Http.Uri.parse access.address with
  | .error _ => .error (.gitHub "configure client" .badAddress)
  | .ok base =>
    if (access.token.getD "").toList.all isHeaderChar then
      .ok ⟨base, Text.withoutTrailing '/' access.address, access.repository, access.token⟩
    else .error .unfitToken

/-- The client of the usual repository. -/
def usual (token : Option String) : Client :=
  ⟨⟨some "https", some "api.github.com", "", none⟩, usualAddress, usualRepository, token⟩

/-- The address that a reference of the client means. A reference without a server lies below the
base. -/
def place (client : Client) (reference : Http.Uri) : Http.Uri :=
  if reference.authority.isSome then reference
  else
    { scheme := client.base.scheme
      authority := client.base.authority
      path := Text.withoutTrailing '/' client.base.path ++ reference.path
      query := reference.query }

/-- The authorization for an address: only the server of the interface is told the token. -/
def authorization (client : Client) (uri : Http.Uri) : Option String :=
  if uri.authority = client.base.authority then client.token.map ("Bearer " ++ ·) else none

def request (client : Client) (method : Http.Method) (reference : Http.Uri)
    (content : Option Json) : Http.Request :=
  let uri := client.place reference
  { method, uri
    accept := mediaType
    authorization := client.authorization uri
    contentType := content.map fun _ => "application/json"
    body := (content.map Json.octets).getD [] }

/-- How it is told that the route of a call is no address. -/
def routeFault (call : Call) (fault : Http.UriFault) : Fault :=
  match call with
  | .deleteComment _ => .badRequest fault
  | .downloadArtifact .. => .badAddress
  | _ => .badRoute fault

def requestOf (client : Client) (call : Call) : Except Failure Http.Request :=
  if call.needsToken && client.token.isNone then .error (.noToken call.name)
  else
    match Http.Uri.parse (call.route client.repository) with
    | .error fault => .error (.gitHub call.name (routeFault call fault))
    | .ok reference => .ok (client.request call.method reference call.content?)

end Client

end WorkflowKit.GitHub
