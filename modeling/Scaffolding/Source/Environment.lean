import Scaffolding.Files.Basic
import Scaffolding.Source.Basic
import Scaffolding.Text.Blank
import Scaffolding.Yaml.Value.Reader

/-!
# Sources from the environment

The variables of the environment override the parts of a source, and they or the hosts file give its
token. A token of the environment counts when it is not blank, and blanks around it do not belong to
it. The token of the hosts file is taken as it is written, unless it is empty.
-/

set_option autoImplicit false

namespace Scaffolding.Source

/-!
## The hosts file

The file in which the command line client of a code host keeps its logins: a mapping from hosts to
records with a token and a user. If any entry of the file cannot be read, none is used.
-/

/-- What is kept about a host. -/
structure Login where
  token : Option String
  user : Option String
  deriving DecidableEq, Repr

namespace Login

/-- The fields of a login that were given, with their texts. -/
abbrev Given := List (String × Option String)

/-- Reads one entry of a login; a field may come once, and other entries are passed over. -/
def readEntry (d : Yaml.Document) (given : Given) (entry : Yaml.Node × Yaml.Node) :
    Yaml.Unfolding Given := do
  let key ← d.text entry.1
  if key ≠ "oauth_token" ∧ key ≠ "user" then return given
  if (given.lookup key).isSome then throw .duplicateKey
  return (key, ← d.optionalText entry.2) :: given

def read (d : Yaml.Document) (node : Yaml.Node) : Yaml.Unfolding Login := do
  let given ← (← d.entries node).foldlM (readEntry d) []
  return ⟨(given.lookup "oauth_token").join, (given.lookup "user").join⟩

end Login

def readLogins (d : Yaml.Document) : Yaml.Unfolding (List (String × Login)) := do
  match d.root with
  | none => return []
  | some root =>
    (← d.entries root).mapM fun (host, login) => do
      return (← d.text host, ← Login.read d login)

/-- The logins in the text of a hosts file, if it can be read. -/
def logins? (text : String) : Option (List (String × Login)) :=
  match Yaml.Document.parse text with
  | .error _ => none
  | .ok d => ((readLogins d).run' 0).toOption

/-- The host whose login is used. -/
def codeHost : String := "github.com"

/-- The login for the code host in the text of a hosts file; of several the last one counts. -/
def login? (text : String) : Option Login :=
  (logins? text).bind fun logins => logins.reverse.lookup codeHost

end Scaffolding.Source

namespace Scaffolding

/-! ## The environment -/

/-- What a program is told by the system that starts it. -/
structure Environment where
  /-- The variables that are set, with their values. -/
  assignments : List (String × String)
  /-- The home directory that the system has on record for the user. -/
  recordedHome : Option String

namespace Environment

/-- The value of a variable, if it is set. -/
def lookup (env : Environment) (name : String) : Option String :=
  env.assignments.lookup name

/-- The home directory: the one that a variable names, or else the one on record. -/
def home? (env : Environment) : Option String :=
  ((env.lookup "HOME").filter fun home => !home.isEmpty).or env.recordedHome

end Environment

namespace Source

/-- The variables that may hold a token; the first that says something counts. -/
def tokenVariables : List String := ["GITHUB_TOKEN", "GH_TOKEN"]

def environmentToken? (env : Environment) : Option String :=
  tokenVariables.findSome? fun name =>
    ((env.lookup name).filter fun value => !Text.isBlankText value).map Text.trim

/-- The path of the hosts file: in the directory that a variable names, or else in the home
directory. -/
def hostsPath? (env : Environment) : Option String :=
  match env.lookup "GH_CONFIG_DIR" with
  | some directory => some (Files.join directory "hosts.yml")
  | none => env.home?.map fun home => Files.join home ".config/gh/hosts.yml"

/-- The login kept by the client of the code host. -/
def savedLogin? (env : Environment) (files : Files) : Option Login := do
  let path ← hostsPath? env
  let text ← files.readText? path
  login? text

/-- The token to show with requests. -/
def tokenOf (env : Environment) (files : Files) : Option String :=
  (environmentToken? env).or
    (((savedLogin? env files).bind Login.token).filter fun token => !token.isEmpty)

/-- The user who is logged in with the client of the code host. -/
def userName? (env : Environment) (files : Files) : Option String :=
  (savedLogin? env files).bind Login.user

/-- The API that the environment names, or the public one. -/
def apiOf (env : Environment) : Except Failure Url :=
  match env.lookup "BLUEPRINT_API_URL" with
  | none => .ok standard.api
  | some text =>
    match Url.parse text with
    | .ok url => .ok url
    | .error e =>
      .error (.retrieval "registry" ("invalid API URL '" ++ text ++ "': " ++ e.message))

def ofEnvironment (env : Environment) (files : Files) : Except Failure Source := do
  let api ← apiOf env
  return {
    standard with
    api := api
    owner := (env.lookup "BLUEPRINT_REGISTRY_OWNER").getD standard.owner
    repository := (env.lookup "BLUEPRINT_REGISTRY_REPO").getD standard.repository
    branch := (env.lookup "BLUEPRINT_REGISTRY_BRANCH").getD standard.branch
    path := (env.lookup "BLUEPRINT_REGISTRY_PATH").getD standard.path
    token := tokenOf env files }

end Source

end Scaffolding
