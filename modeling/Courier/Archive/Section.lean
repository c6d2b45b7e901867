import Courier.Archive.Fault
import Courier.Varint
/-!
# Binary content identifiers

Version 0 is a bare SHA-256 multihash: the octets 18 and 32 and the digest.
Version 1 is four variable length integers, the version, a codec, the code of
a hash function and the length of its digest, followed by the digest. An
identifier stands in front of the data of its block, so its end has to be
found in a longer byte string.
-/

namespace Courier.Archive

def sha256Code : Nat := 0x12

/-- The identity hash, whose digest is the data itself. -/
def identityCode : Nat := 0x00

/-- Where the digest of an identifier lies, and what hash made it. -/
structure Layout where
  hash : Nat
  start : Nat
  stop : Nat
  deriving DecidableEq, Repr

def field (f : CidField) (s : Bytes) : Except Fault (Nat × Bytes) :=
  match Varint.read s with
  | some r => .ok r
  | none => .error (.cidField f)

/-- The layout the first octets claim, whether or not the digest is all there. -/
def claimedLayout (s : Bytes) : Except Fault Layout :=
  match s with
  | 0x12 :: 0x20 :: _ => .ok ⟨sha256Code, 2, 34⟩
  | s => do
    let (version, r) ← field .version s
    if version ≠ 1 then throw (.cidVersion version)
    let (_, r) ← field .codec r
    let (hash, r) ← field .hashCode r
    let (length, r) ← field .digestLength r
    let start := s.length - r.length
    return ⟨hash, start, start + length⟩

def layout (s : Bytes) : Except Fault Layout := do
  let l ← claimedLayout s
  if s.length < l.stop then throw .shortSection
  return l

end Courier.Archive
