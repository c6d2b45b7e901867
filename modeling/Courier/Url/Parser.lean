import Courier.Text.Digits
import Courier.Url.Basic
/-!
# Reading web addresses

Tabs and line ends count for nothing, and a backslash is a slash before the
query. Dots in the path are followed. What may not stand in a part as it is
gets written behind percent signs.
-/

namespace Courier.Url

/-! ## What is written behind percent signs -/

/-- Characters without a place in any address. -/
def isOutside (c : Char) : Bool := decide (c.toNat < 32) || decide (126 < c.toNat)

/-- Whether a fragment has a character behind percent signs. -/
def inFragment (c : Char) : Bool := isOutside c || " \"<>\x60".toList.contains c

/-- Whether a query has a character behind percent signs. -/
def inQuery (c : Char) : Bool := isOutside c || " \"#<>'".toList.contains c

/-- Whether a path has a character behind percent signs. -/
def inPath (c : Char) : Bool := inFragment c || "#?\x7b\x7d".toList.contains c

/-- Whether a user or a password has a character behind percent signs. -/
def inCredentials (c : Char) : Bool := inPath c || "/:;=@[\\]^|".toList.contains c

/-! ## Paths -/

def isSlash (c : Char) : Bool := c = '/' || c = '\\'

/-- A segment with the dots that are written behind percent signs. -/
def dotted : List Char → List Char
  | [] => []
  | '%' :: '2' :: 'e' :: r | '%' :: '2' :: 'E' :: r => '.' :: dotted r
  | c :: r => c :: dotted r

def isHere (q : List Char) : Bool := dotted q = ['.']

def isAbove (q : List Char) : Bool := dotted q = ['.', '.']

/-- Whether a segment names a drive, which nothing is above. -/
def isDrive : List Char → Bool
  | [c, d] => c.isAlpha && (d = ':' || d = '|')
  | _ => false

/-- Goes on from a path, whose last segment comes first. -/
def enter (path : List (List Char)) (q : List Char) : List (List Char) :=
  if isHere q then path
  else if isAbove q then
    if path.head?.any isDrive then path else path.tail
  else Percent.encode inPath q :: path

/-- The segments of a path after its first slash. -/
def segments (cs : List Char) : List (List Char) :=
  let qs := Split.partsAt isSlash cs
  let path := qs.foldl enter []
  (if qs.getLast?.any (fun q => isHere q || isAbove q) then [] :: path else path).reverse

/-! ## Before the path -/

/-- User and password, of which both may be empty. -/
def readCredentials (cs : List Char) : List Char × List Char :=
  let (user, password) := Split.atFirst (· = ':') cs
  (Percent.encode inCredentials user, Percent.encode inCredentials (password.getD []))

/-- A host and what comes after the first colon outside brackets. -/
def splitPort (inside : Bool) : List Char → List Char × Option (List Char)
  | [] => ([], none)
  | c :: r =>
    if c = ':' ∧ !inside then ([], some r)
    else
      let (host, port) := splitPort (c = '[' || inside && c ≠ ']') r
      (c :: host, port)

/-- The port that digits name; that of the scheme needs no name. -/
def readPort? (scheme : Scheme) (cs : List Char) : Option (Option Nat) := do
  let n ← Digits.read? 65536 0 cs
  return if cs.isEmpty ∨ n = scheme.port then none else some n

/-- The scheme, and what comes after its colon. -/
def readScheme? : List Char → Option (Scheme × List Char)
  | 'h' :: 't' :: 't' :: 'p' :: ':' :: r => some (.http, r)
  | 'h' :: 't' :: 't' :: 'p' :: 's' :: ':' :: r => some (.https, r)
  | _ => none

/-! ## Addresses -/

/-- Whether a character counts for nothing. -/
def isSkipped (c : Char) : Bool := c = '\t' || c = '\n' || c = '\r'

def endsHost (c : Char) : Bool := isSlash c || c = '?' || c = '#'

def parse? (s : String) : Option Url := do
  let (scheme, cs) ← readScheme? (s.toList.filter (!isSkipped ·))
  let cs := cs.dropWhile isSlash
  let (given, site) := Split.atLast (· = '@') (cs.takeWhile (!endsHost ·))
  let (user, password) := readCredentials (given.getD [])
  let (host, port) := splitPort false site
  let host ← Host.parse? host
  let port ← readPort? scheme (port.getD [])
  let (cs, fragment) := Split.atFirst (· = '#') (cs.dropWhile (!endsHost ·))
  let (path, query) := Split.atFirst (· = '?') cs
  return {
    scheme, user, password, host, port
    path := segments (path.drop 1)
    query := query.map (Percent.encode inQuery)
    fragment := fragment.map (Percent.encode inFragment) }

end Courier.Url
