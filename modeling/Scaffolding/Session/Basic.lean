import Scaffolding.Files.Copy
import Scaffolding.Remote.Request
import Scaffolding.Tool.Command

/-!
# Sessions

All that the program does to what is around it: it runs commands, sends requests, asks the user and
changes files. What is around it is a world, which may answer in any way, and differently each time:
its answers depend on all that happened before. A session holds what happened and the files as they
are.
-/

set_option autoImplicit false

namespace Scaffolding

/-!
## Questions

What a user can be asked, and the kind of answer to each question. A user may also give no answer,
and then the default of the question applies.
-/

/-- A question to the user. -/
inductive Question
  /-- For a text. -/
  | input (prompt : String) (default : Option String)
  /-- For yes or no. -/
  | confirm (prompt : String) (default : Bool)
  /-- For one of the choices. -/
  | select (prompt : String) (choices : List String) (default : Option String)
  /-- For any number of the choices. -/
  | multiselect (prompt : String) (choices : List String) (defaults : List String)
  deriving DecidableEq, Repr

namespace Question

abbrev Answer : Question → Type
  | input .. => String
  | confirm .. => Bool
  | select .. => String
  | multiselect .. => List String

/-- The text that is shown with a question. -/
def prompt : Question → String
  | input prompt _ => prompt
  | confirm prompt _ => prompt
  | select prompt _ _ => prompt
  | multiselect prompt _ _ => prompt

end Question

/-! ## Worlds and sessions -/

/-- A change of files. -/
inductive Deed
  /-- Makes the directory at a path and those that lead to it. -/
  | makeDirectories (path : String)
  /-- Copies the contents of a directory, or a file, into a directory. -/
  | copyContents (source target : String)
  deriving DecidableEq, Repr

def Deed.step : Deed → Files.Step Unit
  | makeDirectories path => Files.makeDirectories path
  | copyContents source target => do
    let _ ← Files.copyContents source target

/-- One thing that the program did. -/
inductive Event
  | ran (call : Tool.Command)
  | sent (request : Remote.Request)
  | asked (question : Question)
  /-- The user was shown a template and a summary of its settings, and asked to go on. -/
  | confirmed (template : String) (rows : List (String × String))
  | changed (deed : Deed)
  deriving DecidableEq, Repr

/-- How everything around the program answers it, given what happened before. -/
structure World where
  /-- The reply of a command, and the files when it is done. -/
  run : List Event → Files → Tool.Command → Tool.Reply × Files
  send : List Event → Remote.Request → Remote.Delivery
  /-- The answer to a question, which may be none, or the error of asking it. -/
  ask : List Event → (question : Question) → Except SystemError (Option question.Answer)
  /-- The answer when the user is asked to go on. -/
  confirm : List Event → String → List (String × String) → Except SystemError Bool

/-- What happened so far, in order, and the files as they are. -/
structure Session where
  events : List Event
  files : Files

/-- Something done in a world, in the course of a session. -/
abbrev Action := ReaderT World (StateM Session)

namespace Session

def record (event : Event) (s : Session) : Session :=
  { s with events := s.events ++ [event] }

def run (call : Tool.Command) : Action Tool.Reply := fun world s =>
  let (reply, files) := world.run s.events s.files call
  (reply, { s.record (.ran call) with files := files })

def send (request : Remote.Request) : Action Remote.Delivery := fun world s =>
  (world.send s.events request, s.record (.sent request))

def ask (question : Question) : Action (Except SystemError (Option question.Answer)) :=
  fun world s => (world.ask s.events question, s.record (.asked question))

/-- Shows a template and a summary of its settings, and asks whether to go on. -/
def confirm (template : String) (rows : List (String × String)) :
    Action (Except SystemError Bool) := fun world s =>
  (world.confirm s.events template rows, s.record (.confirmed template rows))

/-- Changes files; what was done before an error stays done. -/
def change (deed : Deed) : Action (Except SystemError Unit) := fun _ s =>
  let (result, files) := deed.step.run s.files
  (result, { s.record (.changed deed) with files := files })

def look : Action Files := fun _ s =>
  (s.files, s)

end Session

/-- Something done in a world that may fail. -/
abbrev Attempt := ExceptT Failure Action

end Scaffolding
