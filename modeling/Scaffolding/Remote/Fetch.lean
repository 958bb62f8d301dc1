import Scaffolding.Number.Basic
import Scaffolding.Remote.Request
import Scaffolding.Session.Basic
import Scaffolding.Text.Blank

/-!
# Fetching documents

A document of a repository is fetched with one request, unless its address cannot be composed or the
request cannot be written, and then with none.
-/

set_option autoImplicit false

namespace Scaffolding.Remote

/-!
## Status codes

The status of a response is a number; the registered ones have a phrase that is shown with them.
-/

def phrases : List (Nat × String) :=
  [(100, "Continue"), (101, "Switching Protocols"), (102, "Processing"), (103, "Early Hints"),
    (200, "OK"), (201, "Created"), (202, "Accepted"), (203, "Non Authoritative Information"),
    (204, "No Content"), (205, "Reset Content"), (206, "Partial Content"), (207, "Multi-Status"),
    (208, "Already Reported"), (226, "IM Used"), (300, "Multiple Choices"),
    (301, "Moved Permanently"), (302, "Found"), (303, "See Other"), (304, "Not Modified"),
    (305, "Use Proxy"), (307, "Temporary Redirect"), (308, "Permanent Redirect"),
    (400, "Bad Request"), (401, "Unauthorized"), (402, "Payment Required"), (403, "Forbidden"),
    (404, "Not Found"), (405, "Method Not Allowed"), (406, "Not Acceptable"),
    (407, "Proxy Authentication Required"), (408, "Request Timeout"), (409, "Conflict"),
    (410, "Gone"), (411, "Length Required"), (412, "Precondition Failed"),
    (413, "Payload Too Large"), (414, "URI Too Long"), (415, "Unsupported Media Type"),
    (416, "Range Not Satisfiable"), (417, "Expectation Failed"), (418, "I'm a teapot"),
    (421, "Misdirected Request"), (422, "Unprocessable Entity"), (423, "Locked"),
    (424, "Failed Dependency"), (425, "Too Early"), (426, "Upgrade Required"),
    (428, "Precondition Required"), (429, "Too Many Requests"),
    (431, "Request Header Fields Too Large"), (451, "Unavailable For Legal Reasons"),
    (500, "Internal Server Error"), (501, "Not Implemented"), (502, "Bad Gateway"),
    (503, "Service Unavailable"), (504, "Gateway Timeout"), (505, "HTTP Version Not Supported"),
    (506, "Variant Also Negotiates"), (507, "Insufficient Storage"), (508, "Loop Detected"),
    (510, "Not Extended"), (511, "Network Authentication Required")]

/-- A status code with its phrase. -/
def statusText (status : Nat) : String :=
  String.ofList (natChars status) ++ " " ++
    (phrases.lookup status).getD "<unknown status code>"

/-- The status of a request that was answered. -/
def isSuccess (status : Nat) : Bool :=
  decide (200 ≤ status) && decide (status < 300)

/-!
## Responses

What the answer to a request says: the document, or why there is none. A status of 401 is about the
credential. So are 403 and 404 when no token was shown, since a private repository is hidden behind
them. An answer without any text is no document.
-/

/-- What a status says about the credential, if that is what it is about. -/
def credentialText? (status : Nat) (authenticated : Bool) : Option String :=
  if authenticated then (if status = 401 then some "credential rejected" else none)
  else if status = 401 ∨ status = 403 ∨ status = 404 then some "no credential available"
  else none

/-- The failure that a status means for a document at an address, if it means one. -/
def statusFailure? (url : Url) (status : Nat) (authenticated : Bool) : Option Failure :=
  if isSuccess status then none
  else
    match credentialText? status authenticated with
    | some text =>
      some (.authentication url.text
        (text ++ " (HTTP " ++ String.ofList (natChars status) ++ ")"))
    | none => some (.retrieval url.text ("HTTP " ++ statusText status))

/-- The document in what became of a request for an address. -/
def documentOf (url : Url) (authenticated : Bool) (request : Request) :
    Delivery → Except Failure String
  | .lost => .error (.retrieval url.text request.lossText)
  | .answered status body =>
    match statusFailure? url status authenticated with
    | some f => .error f
    | none =>
      if Text.isBlankText body then .error (.retrieval url.text "empty response body")
      else .ok body

/-! ## Fetching -/

/-- Fetches the document at an address. -/
def fetchUrl (source : Source) (url : Url) : Attempt String := do
  let request := Request.of source url
  match request.flaw? with
  | some reason => throw (.retrieval url.text reason)
  | none =>
    let delivery ← Session.send request
    match documentOf url source.token.isSome request delivery with
    | .ok text => return text
    | .error f => throw f

def fetch (source : Source) (owner repository path branch : String) : Attempt String :=
  match source.documentUrl owner repository path branch with
  | .ok url => fetchUrl source url
  | .error f => throw f

/-- Requests can be sent by the name that the source gives. -/
def checkAgent (source : Source) : Except Failure Unit :=
  if isHeaderText source.agent then .ok () else .error (.retrieval "HTTP client" "builder error")

end Scaffolding.Remote
