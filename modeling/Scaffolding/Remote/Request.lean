import Scaffolding.Source.Basic
import Scaffolding.Text.Bytes

/-!
# Requests

A request asks for the document at an address, in its raw form and with the credentials that there
are. A request that cannot be written is not sent: its credential has to be a legal header value, and
its address one that the protocol can name. What the network does with a request that is sent is
either to lose it or to answer it with a status and a body.
-/

set_option autoImplicit false

namespace Scaffolding.Remote

/-!
## Base 64

Three bytes are written as four characters that stand for six bits each; what is missing in the last
group is marked by equals signs.
-/

def sixBits (n : Nat) : Char :=
  if n < 26 then Char.ofNat (n + 65)
  else if n < 52 then Char.ofNat (n - 26 + 97)
  else if n < 62 then Char.ofNat (n - 52 + 48)
  else if n = 62 then '+'
  else '/'

/-- The text of bytes in base 64. -/
def base64 : List UInt8 → List Char
  | a :: b :: c :: rest =>
    sixBits (a.toNat / 4) :: sixBits (a.toNat % 4 * 16 + b.toNat / 16) ::
      sixBits (b.toNat % 16 * 4 + c.toNat / 64) :: sixBits (c.toNat % 64) :: base64 rest
  | [a, b] =>
    [sixBits (a.toNat / 4), sixBits (a.toNat % 4 * 16 + b.toNat / 16),
      sixBits (b.toNat % 16 * 4), '=']
  | [a] => [sixBits (a.toNat / 4), sixBits (a.toNat % 4 * 16), '=', '=']
  | [] => []

/-! ## What is asked for -/

/-- A request for a document. -/
structure Request where
  url : Url
  accept : String
  /-- The credentials, in the order in which they are written. -/
  authorization : List String
  agent : String
  deriving DecidableEq, Repr

/-- What becomes of a request. -/
inductive Delivery
  /-- There is no answer. -/
  | lost
  /-- There is an answer, with its status and its text. -/
  | answered (status : Nat) (body : String)
  deriving DecidableEq, Repr

def Delivery.ofBytes (status : Nat) (body : List UInt8) : Delivery :=
  .answered status (Text.decodeDocument body)

/-- The form in which documents are asked for. -/
def rawForm : String := "application/vnd.github.v3.raw"

/-- A text that can be written into a header. -/
def isHeaderText (s : String) : Bool :=
  s.toList.all fun c => (decide (0x20 ≤ c.toNat) && c.toNat != 0x7F) || c == '\t'

/-- The user and the password in an address, decoded, if there are any and they can be decoded. -/
def userOf? (url : Url) : Option (List Char × List Char) := do
  if url.host.isNone then failure
  let name ← Text.decode? (Url.decodeBytes url.username)
  let password := url.password.bind fun p => Text.decode? (Url.decodeBytes p)
  if name.isEmpty && password.isNone then failure
  return (name, password.getD [])

/-- The header value for a user and a password. -/
def basicCredential (name password : List Char) : String :=
  "Basic " ++ String.ofList (base64 (Text.bytes (name ++ ':' :: password)))

/-- The header value for a token. -/
def bearerCredential (token : String) : String :=
  "Bearer " ++ token

/-- An address without the user and the password. -/
def withoutUser (url : Url) : Url :=
  { url with username := [], password := none }

/-- An address with a scheme that documents can be fetched by, and in a form that can be sent. -/
def isSendable (url : Url) : Bool :=
  ["http", "https"].contains (String.ofList url.scheme) &&
    !(url.host.elim [] Url.Host.chars).any ['"', '\x60', '\x7b', '\x7d'].contains &&
    decide (url.chars.length ≤ 65534)

/-- The request for the document at an address. A user in the address is a credential and is taken
out of it. -/
def Request.of (source : Source) (url : Url) : Request :=
  let token := source.token.toList.map bearerCredential
  match userOf? url with
  | some (name, password) =>
    ⟨withoutUser url, rawForm, basicCredential name password :: token, source.agent⟩
  | none => ⟨url, rawForm, token, source.agent⟩

/-- Why a request cannot be sent, if it cannot. -/
def Request.flaw? (request : Request) : Option String :=
  if !request.authorization.all isHeaderText then some "builder error"
  else if !isSendable request.url then some ("builder error for url (" ++ request.url.text ++ ")")
  else none

/-- What is said about a request that was lost. -/
def Request.lossText (request : Request) : String :=
  "error sending request for url (" ++ request.url.text ++ ")"

end Scaffolding.Remote
