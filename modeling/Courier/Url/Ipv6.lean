import Courier.Text.Digits
import Courier.Text.Hex
import Courier.Text.Split
/-!
# IPv6 addresses

An address has eight pieces of 16 bits between colons. Two colons stand for one
zero piece or more, and may come once. The last two pieces may be written as
four decimal octets between dots. The longest run of zeros, from two on, is left
out when an address is written.
-/

namespace Courier.Url

structure Ipv6 where
  pieces : List UInt16
  length_eq : pieces.length = 8

namespace Ipv6

/-! ## Reading -/

/-- What has been read: the pieces, and how many came before two colons. The colons themselves
count as a zero piece. -/
structure Reading where
  pieces : List Nat := []
  gap : Option Nat := none

/-- Reads one piece onto what came before. -/
def Reading.add (s : Reading) (n : Nat) : Reading := { s with pieces := s.pieces ++ [n] }

def Reading.skip? (s : Reading) : Option Reading :=
  if s.gap.isSome then none else some { (s.add 0) with gap := some s.pieces.length }

/-- One to four hexadecimal digits. -/
def piece? (cs : List Char) : Option Nat :=
  if cs.isEmpty ∨ 4 < cs.length then none
  else cs.foldlM (fun n c => (Hex.value? c).map (n * 16 + ·)) 0

/-- A decimal number below 256 without a zero before it. -/
def octet? (cs : List Char) : Option Nat :=
  if cs.isEmpty ∨ (cs.head? = some '0' ∧ cs ≠ ['0']) then none else Digits.read? 256 0 cs

/-- Two pieces in the form of four octets. -/
def dotted? (cs : List Char) : Option (Nat × Nat) := do
  match ← (Split.partsAt (· = '.') cs).mapM octet? with
  | [a, b, c, d] => some (a * 256 + b, c * 256 + d)
  | _ => none

/-- Reads the last part, which is not empty. -/
def readLast? (s : Reading) (p : List Char) : Option Reading :=
  if '.' ∈ p then do
    let (a, b) ← dotted? p
    if s.pieces.length ≤ 6 then some ((s.add a).add b) else none
  else do
    let n ← piece? p
    if s.pieces.length < 8 then some (s.add n) else none

/-- Reads the parts between colons. Nothing may follow the two colons, but not a single one. -/
def readParts? (s : Reading) (afterGap : Bool) : List (List Char) → Option Reading
  | [] => none
  | [p] => if p.isEmpty then (if afterGap then some s else none) else readLast? s p
  | p :: r => do
    if s.pieces.length = 8 then none
    else if p.isEmpty then readParts? (← s.skip?) true r
    else readParts? (s.add (← piece? p)) false r

/-- Puts zeros where the two colons are. -/
def Reading.address? (s : Reading) : Option Ipv6 :=
  let ps :=
    match s.gap with
    | none => s.pieces
    | some g => s.pieces.take g ++ List.replicate (8 - s.pieces.length) 0 ++ s.pieces.drop g
  if h : (ps.map UInt16.ofNat).length = 8 then some ⟨ps.map UInt16.ofNat, h⟩ else none

def parse? (cs : List Char) : Option Ipv6 := do
  match Split.partsAt (· = ':') cs with
  | [] :: [] :: r => (← readParts? (← Reading.skip? {}) true r).address?
  | [] :: _ => none
  | ps => (← readParts? {} false ps).address?

/-! ## Writing -/

/-- How many zeros each rest of the pieces starts with. -/
def zeroRuns : List UInt16 → List Nat
  | [] => []
  | p :: r =>
    let runs := zeroRuns r
    (if p = 0 then runs.headD 0 + 1 else 0) :: runs

/-- Where the longest run of zeros starts, the first of several, and how long it is. -/
def longestRun? (ps : List UInt16) : Option (Nat × Nat) :=
  let runs := zeroRuns ps
  let longest := runs.foldl max 0
  if longest < 2 then none else some (runs.idxOf longest, longest)

/-- The hexadecimal pieces between colons. -/
def written (ps : List UInt16) : List Char :=
  [':'].intercalate (ps.map fun p => Hex.digits 1 p.toUInt64)

def text (a : Ipv6) : List Char :=
  match longestRun? a.pieces with
  | none => written a.pieces
  | some (start, n) =>
    written (a.pieces.take start) ++ [':', ':'] ++ written (a.pieces.drop (start + n))

end Ipv6

end Courier.Url
