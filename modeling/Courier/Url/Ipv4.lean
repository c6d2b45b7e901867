import Courier.Text.Hex
import Courier.Text.Split
/-!
# IPv4 addresses

An address has up to four numbers between dots, and one dot more may follow. A
number is decimal, or octal after a zero, or hexadecimal after `0x`. The last
number fills the octets that the numbers before it leave, one for each of them.
-/

namespace Courier.Url

structure Ipv4 where
  value : UInt32
  deriving DecidableEq, Repr

namespace Ipv4

def number? (base : Nat) (cs : List Char) : Option Nat :=
  cs.foldlM (fun n c => (Hex.value? c).bind fun v => if v < base then some (n * base + v) else none)
    0

/-- The number that a part stands for. -/
def partValue? : List Char → Option Nat
  | [] => none
  | '0' :: 'x' :: r | '0' :: 'X' :: r => number? 16 r
  | '0' :: c :: r => number? 8 (c :: r)
  | r => number? 10 r

/-- The parts of a name between its dots, one dot at the end left out. -/
def parts (name : List Char) : List (List Char) :=
  let ps := Split.partsAt (· = '.') name
  if ps.getLast? = some [] then ps.dropLast else ps

/-- Whether a name has to be an address: its last part is a number, or digits at least. -/
def isMeant (name : List Char) : Bool :=
  match (parts name).getLast? with
  | none => false
  | some p => (!p.isEmpty && p.all Char.isDigit) || (partValue? p).isSome

/-- The value of numbers that have `octets` octets to fill. -/
def assemble? : Nat → List Nat → Option Nat
  | octets + 1, [n] => if n < Nat.pow 256 (octets + 1) then some n else none
  | octets + 1, n :: r => do
    let rest ← assemble? octets r
    if n < 256 then some (n * Nat.pow 256 octets + rest) else none
  | _, _ => none

def parse? (name : List Char) : Option Ipv4 := do
  let ns ← (parts name).mapM partValue?
  let v ← assemble? 4 ns
  return ⟨UInt32.ofNat v⟩

/-- The four octets, most significant first. -/
def octets (a : Ipv4) : List Nat :=
  [24, 16, 8, 0].map fun k => a.value.toNat / Nat.pow 2 k % 256

def text (a : Ipv4) : List Char :=
  ['.'].intercalate (a.octets.map fun n => (Nat.repr n).toList)

end Ipv4

end Courier.Url
