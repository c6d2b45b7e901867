import Courier.Url.Host
/-!
# Web addresses

An address names a scheme, a host and a path on it. Its text is what other
programs read, so every part is kept as it is written there.
-/

namespace Courier

/-- How a host is spoken to. -/
inductive Url.Scheme where
  | http
  | https
  deriving DecidableEq, Repr

def Url.Scheme.text : Scheme → String
  | .http => "http"
  | .https => "https"

def Url.Scheme.port : Scheme → Nat
  | .http => 80
  | .https => 443

structure Url where
  scheme : Url.Scheme
  /-- Who speaks to the host; empty if that is not said. -/
  user : List Char := []
  password : List Char := []
  host : Url.Host
  /-- The port, if it is not that of the scheme. -/
  port : Option Nat := none
  /-- The segments of the path, each after a slash. -/
  path : List (List Char)
  query : Option (List Char) := none
  fragment : Option (List Char) := none

namespace Url

def site (u : Url) : List Char :=
  u.host.text ++
    match u.port with
    | none => []
    | some n => ':' :: (Nat.repr n).toList

/-- User and password as they stand before the host. -/
def credentials (u : Url) : List Char :=
  let password := if u.password.isEmpty then [] else ':' :: u.password
  if u.user.isEmpty ∧ u.password.isEmpty then [] else u.user ++ password ++ ['@']

/-- A part that comes after a sign, if it is there. -/
def after (sign : Char) : Option (List Char) → List Char
  | none => []
  | some cs => sign :: cs

def text (u : Url) : String :=
  u.scheme.text ++ "://" ++ String.ofList (u.credentials ++ u.site ++
    u.path.flatMap ('/' :: ·) ++ after '?' u.query ++ after '#' u.fragment)

end Url

end Courier
