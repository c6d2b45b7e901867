import Courier.Bytes
/-!
# Hexadecimal numbers

Lower-case digits, most significant first, padded with zeros to a least width.
The reader takes digits of either case after one optional plus sign and
reports the first fault from the left.
-/

namespace Courier.Hex

/-- The lower-case digit of a value below sixteen. -/
def digit (v : Nat) : Char :=
  if v < 10 then Char.ofNat (v + 48) else Char.ofNat (v + 87)

/-- The value of a digit of either case. -/
def value? (c : Char) : Option Nat :=
  let n := c.toNat
  if 48 ≤ n ∧ n ≤ 57 then some (n - 48)
  else if 97 ≤ n ∧ n ≤ 102 then some (n - 87)
  else if 65 ≤ n ∧ n ≤ 70 then some (n - 55)
  else none

/-- The `k` low digits of a number. -/
def lowDigits : Nat → Nat → List Char
  | 0, _ => []
  | k + 1, n => lowDigits k (n / 16) ++ [digit (n % 16)]

/-- Drops leading zeros while more than `width` digits are left. -/
def trim (width : Nat) : List Char → List Char
  | [] => []
  | c :: r => if c = '0' ∧ width ≤ r.length then trim width r else c :: r

/-- The digits of a 64 bit number, at least `width` of them. -/
def digits (width : Nat) (n : UInt64) : List Char :=
  trim width (lowDigits 16 n.toNat)

inductive Fault where
  | empty
  | invalidDigit
  | overflow
  deriving DecidableEq, Repr

def Fault.message : Fault → String
  | .empty => "cannot parse integer from empty string"
  | .invalidDigit => "invalid digit found in string"
  | .overflow => "number too large to fit in target type"

/-- Reads digits onto the number read so far. -/
def readDigits (n : Nat) : List Char → Except Fault Nat
  | [] => .ok n
  | c :: r =>
    match value? c with
    | none => .error .invalidDigit
    | some v => if n * 16 + v < UInt64.size then readDigits (n * 16 + v) r else .error .overflow

def read : List Char → Except Fault UInt64
  | [] => .error .empty
  | ['+'] => .error .invalidDigit
  | '+' :: r => (readDigits 0 r).map UInt64.ofNat
  | r => (readDigits 0 r).map UInt64.ofNat

/-- Two digits for every octet. -/
def ofBytes (b : Bytes) : String :=
  String.ofList (b.flatMap fun x => [digit (x.toNat / 16), digit (x.toNat % 16)])

end Courier.Hex
