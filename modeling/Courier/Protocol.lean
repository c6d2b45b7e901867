import Courier.Text.Hex
/-!
# Retrieval protocols

A protocol is a 64 bit code. Three codes have names; any other is carried
along as it is. Protocols are compared by code, so a raw code that happens to
be a named one is the same protocol, although it is displayed as a number.
-/

namespace Courier

inductive Protocol where
  | bitswap
  | graphsync
  | http
  | other (code : UInt64)
  deriving DecidableEq, Repr, Inhabited

namespace Protocol

def code : Protocol → UInt64
  | .bitswap => 0x0900
  | .graphsync => 0x0910
  | .http => 0x0920
  | .other c => c

/-- The protocol of a code, named if it has a name. -/
def ofCode (c : UInt64) : Protocol :=
  if c = 0x0900 then .bitswap
  else if c = 0x0910 then .graphsync
  else if c = 0x0920 then .http
  else .other c

@[simp] theorem code_ofCode (c : UInt64) : (ofCode c).code = c := by
  unfold ofCode
  split
  · simp [code, *]
  split
  · simp [code, *]
  split
  · simp [code, *]
  · rfl

/-- Equality of protocols goes by code. -/
def same (p q : Protocol) : Bool := p.code == q.code

/-- The protocols retrieved with when none are chosen, in order. -/
def defaults : List Protocol := [.bitswap, .graphsync, .http]

/-- Sorts by code and keeps equal ones in order. -/
def sortByCode (l : List Protocol) : List Protocol :=
  l.mergeSort fun p q => decide (p.code ≤ q.code)

/-! ## Text -/

def text : Protocol → String
  | .bitswap => "transport-bitswap"
  | .graphsync => "transport-graphsync-filecoinv1"
  | .http => "transport-ipfs-gateway-http"
  | .other c => "0x" ++ String.ofList (Hex.digits 4 c)

/-- Why a text names no protocol. -/
inductive Fault where
  | number (fault : Hex.Fault)
  | unrecognized (text : String)
  deriving DecidableEq, Repr

/-- Reads a short name, a displayed name or a code after `0x`. -/
def parse (s : String) : Except Fault Protocol :=
  if s = "bitswap" ∨ s = "transport-bitswap" then .ok .bitswap
  else if s = "graphsync" ∨ s = "transport-graphsync-filecoinv1" then .ok .graphsync
  else if s = "http" ∨ s = "transport-ipfs-gateway-http" then .ok .http
  else
    match s.toList with
    | '0' :: 'x' :: r =>
      match Hex.read r with
      | .ok c => .ok (ofCode c)
      | .error e => .error (.number e)
    | _ => .error (.unrecognized s)

end Protocol

end Courier
