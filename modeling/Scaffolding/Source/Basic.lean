import Scaffolding.Failure
import Scaffolding.Url.Reader

/-!
# Sources

A source is where templates come from: the address of a contents API, the repository with the
registry in it, and the credential that is shown with every request. Every document is read at an
address composed of the API's own address, the repository, the path and the branch.
-/

set_option autoImplicit false

namespace Scaffolding

/-- Where the registry is and how to ask for it. -/
structure Source where
  /-- The address of the contents API. -/
  api : Url
  owner : String
  repository : String
  /-- The branch of the registry, and of every template that names none. -/
  branch : String
  /-- The path of the registry in its repository. -/
  path : String
  token : Option String
  /-- The name by which requests are sent. -/
  agent : String
  deriving DecidableEq, Repr

namespace Source

def programName : String := "blueprint"
def programVersion : String := "0.1.0"

def publicApi : Url where
  scheme := "https".toList
  username := []
  password := none
  host := some (.domain "api.github.com".toList)
  port := none
  path := .segments [[]]
  query := none
  fragment := none

/-- The source that is used when nothing else is said. -/
def standard : Source where
  api := publicApi
  owner := "A3DAndre"
  repository := "templates-cli"
  branch := "main"
  path := "templates.yaml"
  token := none
  agent := programName ++ "/" ++ programVersion

/-- The same source with another registry; what is not given stays. -/
def withRegistry (s : Source) (owner repository branch : Option String) : Source :=
  { s with
    owner := owner.getD s.owner
    repository := repository.getD s.repository
    branch := branch.getD s.branch }

/-- The names between the slashes of a path. -/
def pathPieces (path : String) : List (List Char) :=
  (Text.splitChars '/' path.toList).filter fun piece => !piece.isEmpty

/-- The segments that follow the address of the API. -/
def documentSegments (owner repository path : String) : List (List Char) :=
  "repos".toList :: owner.toList :: repository.toList :: "contents".toList :: pathPieces path

/-- The address of a document. The address of an API without segments cannot be extended. -/
def documentUrl (s : Source) (owner repository path branch : String) : Except Failure Url :=
  match s.api.extend? (documentSegments owner repository path) with
  | some url => .ok (url.addQuery "ref".toList branch.toList)
  | none => .error (.retrieval path ("API URL cannot have path segments: " ++ s.api.text))

end Source

end Scaffolding
