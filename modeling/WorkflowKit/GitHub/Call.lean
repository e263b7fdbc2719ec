import WorkflowKit.Http.Message
import WorkflowKit.Json.Value
import WorkflowKit.Text.Percent

namespace WorkflowKit.GitHub

structure Repository where
  owner : String
  name : String
  deriving DecidableEq, Repr

namespace Repository

def text (repository : Repository) : String :=
  repository.owner ++ "/" ++ repository.name

def route (repository : Repository) (place : String) : String :=
  "/repos/" ++ repository.text ++ place

end Repository

/-- A call of the interface. What it asks of the server depends on the repository alone. -/
inductive Call where
  | createIssue (title label : String)
  | updateIssue (issue : Nat) (changes : Json)
  | openIssue (issue : Nat)
  | closeIssue (issue : Nat)
  /-- Replaces the text of an issue itself. -/
  | updateIssueText (issue : Nat) (text : String)
  | searchIssues (label : String)
  | listComments (issue : Nat)
  | addComment (issue : Nat) (text : String)
  | updateComment (comment : Nat) (text : String)
  | deleteComment (comment : Nat)
  | addLabel (issue : Nat) (label : String)
  | deleteLabel (issue : Nat) (label : String)
  | listArtifacts (run : Nat)
  | downloadArtifact (artifact : Nat) (path : String)

namespace Call

def name : Call → String
  | createIssue .. => "create_issue"
  | updateIssue .. => "update_issue"
  | openIssue _ => "open_issue"
  | closeIssue _ => "close_issue"
  | updateIssueText .. => "update_issue_comment"
  | searchIssues _ => "search_issues_by_label"
  | listComments _ => "list_comments"
  | addComment .. => "add_comment"
  | updateComment .. => "update_comment"
  | deleteComment _ => "delete_comment"
  | addLabel .. => "add_label"
  | deleteLabel .. => "delete_label"
  | listArtifacts _ => "list_artifacts"
  | downloadArtifact .. => "download_artifact"

/-- Issues can be searched and comments listed by everyone; all else needs a token. -/
def needsToken : Call → Bool
  | searchIssues _ => false
  | listComments _ => false
  | _ => true

def method : Call → Http.Method
  | createIssue .. | addComment .. | addLabel .. => .post
  | updateIssue .. | openIssue _ | closeIssue _ | updateIssueText .. | updateComment .. => .patch
  | deleteComment _ | deleteLabel .. => .delete
  | searchIssues _ | listComments _ | listArtifacts _ | downloadArtifact .. => .get

def searchText (repository : Repository) (label : String) : String :=
  s!"repo:{repository.text} label:\"{label}\" is:issue"

/-- The route of a call with its texts as they were given. -/
def shownRoute (repository : Repository) : Call → String
  | createIssue .. => repository.route "/issues"
  | updateIssue issue _ => repository.route s!"/issues/{issue}"
  | openIssue issue => repository.route s!"/issues/{issue}"
  | closeIssue issue => repository.route s!"/issues/{issue}"
  | updateIssueText issue _ => repository.route s!"/issues/{issue}"
  | searchIssues label => "/search/issues?q=" ++ searchText repository label
  | listComments issue => repository.route s!"/issues/{issue}/comments"
  | addComment issue _ => repository.route s!"/issues/{issue}/comments"
  | updateComment comment _ => repository.route s!"/issues/comments/{comment}"
  | deleteComment comment => repository.route s!"/issues/comments/{comment}"
  | addLabel issue _ => repository.route s!"/issues/{issue}/labels"
  | deleteLabel issue label => repository.route s!"/issues/{issue}/labels/{label}"
  | listArtifacts run => repository.route s!"/actions/runs/{run}/artifacts"
  | downloadArtifact artifact _ => repository.route s!"/actions/artifacts/{artifact}/zip"

/-- The route of a call as it is sent: texts are escaped for their place in an address. -/
def route (repository : Repository) (call : Call) : String :=
  match call with
  | searchIssues label => "/search/issues?q=" ++ Text.formValue (searchText repository label)
  | deleteLabel issue label => repository.route s!"/issues/{issue}/labels/{Text.pathPart label}"
  | _ => call.shownRoute repository

def content? : Call → Option Json
  | createIssue title label => some (.object [("labels", .ofTexts [label]), ("title", .text title)])
  | updateIssue _ changes => some changes
  | openIssue _ => some (.object [("state", .text "open")])
  | closeIssue _ => some (.object [("state", .text "closed")])
  | updateIssueText _ text => some (.object [("body", .text text)])
  | addComment _ text => some (.object [("body", .text text)])
  | updateComment _ text => some (.object [("body", .text text)])
  | addLabel _ label => some (.ofTexts [label])
  | _ => none

end Call

end WorkflowKit.GitHub
