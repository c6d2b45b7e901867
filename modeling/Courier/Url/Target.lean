import Courier.Url.Parser
/-!
# Where requests go

A request goes to an address without user and password, which are sent beside
it. Some addresses can be read but not sent.
-/

namespace Courier.Url

/-- The octets of the longest address that is sent. -/
def longest : Nat := 65534

/-- Whether a character of a host name cannot be sent. -/
def isUnsent (c : Char) : Bool := "\"\x60\x7b\x7d".toList.contains c

def isSendable (u : Url) : Bool :=
  decide (u.text.utf8ByteSize ≤ longest) &&
    match u.host with
    | .name s => !s.any isUnsent
    | _ => true

/-- Whether a text stands for a text behind percent signs. -/
def isText (cs : List Char) : Bool := (Bytes.text? (Percent.decode cs)).isSome

/-- Takes user and password out, if they can be sent as texts. -/
def withoutCredentials (u : Url) : Url :=
  if isText u.user && (!u.user.isEmpty || isText u.password) then
    { u with user := [], password := [] }
  else u

inductive Refusal where
  | unreadable
  | unsendable (u : Url)

def Refusal.message : Refusal → String
  | .unreadable => "builder error"
  | .unsendable u => "builder error for url (" ++ u.text ++ ")"

/-- The address that a request goes to. -/
def target (s : String) : Except Refusal Url :=
  match parse? s with
  | none => .error .unreadable
  | some u =>
    let u := u.withoutCredentials
    if u.isSendable then .ok u else .error (.unsendable u)

end Courier.Url
