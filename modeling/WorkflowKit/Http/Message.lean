import WorkflowKit.Http.Uri
import WorkflowKit.Text.Octets

namespace WorkflowKit.Http

inductive Method where
  | get
  | post
  | patch
  | delete
  deriving DecidableEq, Repr

def Method.name : Method → String
  | get => "GET"
  | post => "POST"
  | patch => "PATCH"
  | delete => "DELETE"

structure Request where
  method : Method
  uri : Uri
  accept : String
  authorization : Option String
  contentType : Option String
  body : Octets
  deriving DecidableEq, Repr

structure Response where
  status : Nat
  headers : List (String × Octets)
  body : Octets
  deriving DecidableEq, Repr

namespace Response

def empty : Response := ⟨200, [], []⟩

/-- The value of a header, whose name may be in letters of either case. -/
def header? (response : Response) (name : String) : Option Octets :=
  (response.headers.find? fun header => header.1.map Char.toLower = name).map (·.2)

def isSuccess (response : Response) : Bool :=
  200 ≤ response.status && response.status < 300

def isServerError (response : Response) : Bool :=
  500 ≤ response.status && response.status < 600

end Response

/-- The phrase that explains a status of a failing server. -/
def serverErrorPhrase (status : Nat) : String :=
  let phrases :=
    [(500, "Internal Server Error"), (501, "Not Implemented"), (502, "Bad Gateway"),
     (503, "Service Unavailable"), (504, "Gateway Timeout"), (505, "HTTP Version Not Supported"),
     (506, "Variant Also Negotiates"), (507, "Insufficient Storage"), (508, "Loop Detected"),
     (510, "Not Extended"), (511, "Network Authentication Required")]
  (phrases.lookup status).getD "<unknown status code>"

end WorkflowKit.Http
