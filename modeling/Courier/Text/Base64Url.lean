import Courier.Bytes
/-!
# Base64url text without padding

Three octets become four symbols of six bits; one or two octets at the end
become two or three symbols whose unused low bits are zero. The reader takes
exactly what the writer produces. It works in groups of four symbols, the last
group being the final one to four, and reports the first fault it meets there.
-/

namespace Courier.Base64Url

/-! ## Symbols -/

def symbol (v : Nat) : UInt8 :=
  if v < 26 then UInt8.ofNat (v + 65)
  else if v < 52 then UInt8.ofNat (v + 71)
  else if v < 62 then UInt8.ofNat (v - 4)
  else if v = 62 then 45
  else 95

def value? (b : UInt8) : Option Nat :=
  let n := b.toNat
  if 65 ≤ n ∧ n ≤ 90 then some (n - 65)
  else if 97 ≤ n ∧ n ≤ 122 then some (n - 71)
  else if 48 ≤ n ∧ n ≤ 57 then some (n + 4)
  else if n = 45 then some 62
  else if n = 95 then some 63
  else none

/-- The sign that other dialects fill groups with. -/
def padding : UInt8 := 61

/-! ## Writing -/

def symbols : Bytes → Bytes
  | [] => []
  | [a] => [symbol (a.toNat / 4), symbol (a.toNat % 4 * 16)]
  | [a, b] =>
    [symbol (a.toNat / 4), symbol (a.toNat % 4 * 16 + b.toNat / 16), symbol (b.toNat % 16 * 4)]
  | a :: b :: c :: r =>
    symbol (a.toNat / 4) :: symbol (a.toNat % 4 * 16 + b.toNat / 16) ::
      symbol (b.toNat % 16 * 4 + c.toNat / 64) :: symbol (c.toNat % 64) :: symbols r

def encode (b : Bytes) : String :=
  String.ofList ((symbols b).map fun s => Char.ofNat s.toNat)

/-! ## Reading -/

inductive Fault where
  | symbol (byte : UInt8) (offset : Nat)
  | length (n : Nat)
  | padding
  | lastSymbol (byte : UInt8) (offset : Nat)
  deriving DecidableEq, Repr

def Fault.message : Fault → String
  | .symbol b i => s!"Invalid symbol {b.toNat}, offset {i}."
  | .length n => s!"Invalid input length: {n}"
  | .padding => "Invalid padding"
  | .lastSymbol b i => s!"Invalid last symbol {b.toNat}, offset {i}."

def valueAt (offset : Nat) (b : UInt8) : Except Fault Nat :=
  match value? b with
  | some v => .ok v
  | none => .error (.symbol b offset)

/-- The values of the last group, read left to right. `offset` is that of the group, `i` the
position in it, `pad` the position of the first padding symbol met. -/
def lastValues (offset : Nat) : Nat → Option Nat → Bytes → Except Fault (List Nat × Bool)
  | _, pad, [] => .ok ([], pad.isSome)
  | i, pad, b :: r =>
    if b = padding then
      if i < 2 then .error (.symbol b (offset + i))
      else lastValues offset (i + 1) (pad.or (some i)) r
    else
      match pad with
      | some j => .error (.symbol padding (offset + j))
      | none =>
        match value? b with
        | none => .error (.symbol b (offset + i))
        | some v => (lastValues offset (i + 1) none r).map fun (vs, p) => (v :: vs, p)

/-- The octets of the last group. Its dropped low bits must be zero. -/
def lastGroup (offset : Nat) (g : Bytes) : Except Fault Bytes :=
  match lastValues offset 0 none g with
  | .error e => .error e
  | .ok (vs, padded) =>
    if g ≠ [] ∧ vs.length < 2 then .error (.length (offset + vs.length))
    else if padded then .error .padding
    else
      match vs with
      | [a, b] =>
        if b % 16 = 0 then .ok [UInt8.ofNat (a * 4 + b / 16)]
        else .error (.lastSymbol (g.getD 1 0) (offset + 1))
      | [a, b, c] =>
        if c % 4 = 0 then
          .ok [UInt8.ofNat (a * 4 + b / 16), UInt8.ofNat (b % 16 * 16 + c / 4)]
        else .error (.lastSymbol (g.getD 2 0) (offset + 2))
      | [a, b, c, d] =>
        .ok [UInt8.ofNat (a * 4 + b / 16), UInt8.ofNat (b % 16 * 16 + c / 4),
          UInt8.ofNat (c % 4 * 64 + d)]
      | _ => .ok []

/-- The octets of a text from `offset` on. -/
def groups (offset : Nat) : Bytes → Except Fault Bytes
  | a :: b :: c :: d :: e :: r => do
    let va ← valueAt offset a
    let vb ← valueAt (offset + 1) b
    let vc ← valueAt (offset + 2) c
    let vd ← valueAt (offset + 3) d
    let rest ← groups (offset + 4) (e :: r)
    return UInt8.ofNat (va * 4 + vb / 16) :: UInt8.ofNat (vb % 16 * 16 + vc / 4) ::
      UInt8.ofNat (vc % 4 * 64 + vd) :: rest
  | g => lastGroup offset g

/-- The octets a symbol string stands for. A single symbol left over at the end that is no
symbol at all is reported before anything else. -/
def decode (s : Bytes) : Except Fault Bytes :=
  match s.getLast? with
  | some b =>
    if s.length % 4 = 1 ∧ value? b = none ∧ b ≠ padding then
      .error (.symbol b (s.length - 1))
    else groups 0 s
  | none => .ok []

end Courier.Base64Url
