import Courier.Text.Digits
import Courier.Text.Split
import Courier.Url.Basic
/-!
# Gateway endpoints

A candidate's address is a web address, taken as it is up to its trailing
slashes, or a path of named parts: a kind of host and the host, and then ports,
a security layer and a scheme.
-/

namespace Courier.Endpoint

/-- What the parts after the host have said so far. -/
structure Parts where
  port : Option Nat := none
  secure : Bool := false
  scheme : Option Url.Scheme := none
  deriving DecidableEq, Repr

/-- A port: digits, one at least, after an optional plus sign. -/
def port? : List Char → Option Nat
  | [] => none
  | ['+'] => none
  | '+' :: r => Digits.read? 65536 0 r
  | r => Digits.read? 65536 0 r

/-- Reads the parts after the host. -/
def readParts (s : Parts) : List (List Char) → Option Parts
  | [] => some s
  | part :: r =>
    if part = "tcp".toList then
      match r with
      | [] => none
      | p :: r =>
        match port? p with
        | none => none
        | some n => readParts { s with port := some n } r
    else if part = "tls".toList then readParts { s with secure := true } r
    else if part = "http".toList then
      readParts { s with scheme := some (if s.secure then .https else .http) } r
    else if part = "https".toList then readParts { s with scheme := some .https } r
    else none

/-- The host as an endpoint writes it, of the kinds that can be reached. -/
def host? (kind host : List Char) : Option String :=
  if kind = "ip6".toList then some ("[" ++ String.ofList host ++ "]")
  else if kind = "ip4".toList ∨ kind = "dns".toList ∨ kind = "dns4".toList ∨ kind = "dns6".toList
    then some (String.ofList host)
  else none

/-- An endpoint has no slash at its end. -/
def dropTrailingSlashes (cs : List Char) : List Char :=
  (cs.reverse.dropWhile (· = '/')).reverse

/-- The endpoint of a path of named parts, which has to name a scheme. -/
def ofPath (cs : List Char) : Option String :=
  match cs with
  | '/' :: r =>
    match Split.partsAt (· = '/') r with
    | kind :: h :: rest => do
      let host ← host? kind h
      let parts ← readParts {} rest
      let scheme ← parts.scheme
      match parts.port with
      | some n => return scheme.text ++ "://" ++ host ++ ":" ++ Nat.repr n
      | none => return scheme.text ++ "://" ++ host
    | _ => none
  | _ => none

/-- Scheme, host and port of an address, without a slash at the end. -/
def ofAddress (addr : String) : Option String :=
  let cs := addr.toList
  if "http://".toList.isPrefixOf cs || "https://".toList.isPrefixOf cs then
    some (String.ofList (dropTrailingSlashes cs))
  else ofPath cs

end Courier.Endpoint
