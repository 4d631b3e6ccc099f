import Throttle.Address.Socket
import Throttle.Key
import Throttle.Text.Blank

/-!
Requests and the keys drawn from them.

A header value is kept as one character per byte; it is readable only if every byte is visible
ASCII, a space or a tab. Header names are compared without regard to case, and of several values
under one name the first counts. The client's address is the first entry of `X-Forwarded-For`, else
`X-Real-IP`, else the peer's; a peer is what the connection reports, else a socket address, else a
bare address. An address that is not IPv4, and a missing one, share the key `0.0.0.0`. Addresses are
read without the blanks around them; a header taken as a key of its own keeps them, so values that
differ in a blank are different keys. A key may be drawn from a request by any other function too.
-/

namespace Throttle

structure Request where
  headers : List (String × String)
  connection : Option Address.Socket
  peer : Option Address.Socket
  peerIp : Option Address.Ip
  deriving DecidableEq, Repr

namespace Request

/-- A request without headers from an unknown peer. -/
def anonymous : Request := ⟨[], none, none, none⟩

def isReadable (value : String) : Bool :=
  value.toList.all fun c => c == '\t' || (' ' ≤ c && c ≤ '~')

/-- The first value under a name, whatever it holds. -/
def header? (r : Request) (name : String) : Option String :=
  (r.headers.find? fun (n, _) => n.toLower == name.toLower).map (·.2)

def nonEmpty (s : String) : Option String := if s.isEmpty then none else some s

/-- The first value under a name as it stands, if it is readable. -/
def readable? (r : Request) (name : String) : Option String := (r.header? name).filter isReadable

/-- The first value under a name without the blanks around it, if it is readable and not empty. -/
def headerText? (r : Request) (name : String) : Option String := do
  nonEmpty (Text.trim (← r.readable? name))

/-- The first entry of the list of forwarding addresses. -/
def forwardedFor? (r : Request) : Option String := do
  let value ← r.headerText? "x-forwarded-for"
  match Text.fields ',' value.toList with
  | entry :: _ => nonEmpty (Text.trim (.ofList entry))
  | [] => none

def peerAddress? (r : Request) : Option Address.Ip :=
  (r.connection.map (·.ip)) <|> (r.peer.map (·.ip)) <|> r.peerIp

/-- The text of the peer's address; an IPv4 address in IPv6 form is written as IPv4. -/
def peerText? (r : Request) : Option String := r.peerAddress?.map fun ip => ip.canonical.toText

def clientText? (r : Request) : Option String :=
  r.forwardedFor? <|> r.headerText? "x-real-ip" <|> r.peerText?

/-- The key of an address in text form. -/
def addressKey (text : Option String) : Key := .ip (.ofText (text.getD ""))

end Request

/-- Any function that draws from a request the key it is counted under, if there is one. -/
abbrev KeyExtractor := Request → Option Key

/-- The key extractors that go by a name. -/
inductive Extractor where
  | client
  | peer
  | header (name : String)
  deriving DecidableEq, Repr

def Extractor.key? (e : Extractor) (r : Request) : Option Key :=
  match e with
  | .client => some (Request.addressKey r.clientText?)
  | .peer => some (Request.addressKey r.peerText?)
  | .header name => ((r.readable? name).bind Request.nonEmpty).map .text

instance : CoeFun Extractor fun _ => KeyExtractor := ⟨Extractor.key?⟩

end Throttle
