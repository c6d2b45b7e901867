import Courier.Ident
/-!
# What can be wrong with a content archive
-/

namespace Courier.Archive

/-- The numbers a binary content identifier starts with. -/
inductive CidField where
  | version
  | codec
  | hashCode
  | digestLength
  deriving DecidableEq, Repr

def CidField.name : CidField → String
  | .version => "version"
  | .codec => "codec"
  | .hashCode => "multihash code"
  | .digestLength => "digest length"

inductive Fault where
  | varintTooLong
  | invalidVarint
  | frameLength (n : Nat)
  | cidField (field : CidField)
  | cidVersion (n : Nat)
  | shortSection
  | trailingBytes (cid : Cid)
  | unsupportedHash (code : Nat) (cid : Cid)
  | mismatch (cid : Cid)
  | noHeader
  /-- The stream ended with octets that make no whole frame. -/
  | truncated (left : Nat)
  deriving DecidableEq, Repr

/-- The reader of variable length integers has this one fault. -/
def varintFault : String := "failed to decode Protobuf message: invalid varint"

def Fault.message : Fault → String
  | .varintTooLong => "car varint too long"
  | .invalidVarint => "invalid car varint"
  | .frameLength n => s!"invalid car frame length {n}"
  | .cidField f => s!"invalid cid {f.name}"
  | .cidVersion n => s!"unsupported cid version {n}"
  | .shortSection => "car section shorter than its cid"
  | .trailingBytes c => s!"trailing bytes after the multihash of {c.text}"
  | .unsupportedHash n c =>
    s!"unsupported multihash 0x{String.ofList (Hex.digits 1 (UInt64.ofNat n))} in {c.text}"
  | .mismatch c => s!"block data does not match {c.text}"
  | .noHeader => "car stream ended before header"
  | .truncated n => s!"car stream ended inside a section ({n} bytes left)"

def Fault.source : Fault → Option String
  | .invalidVarint | .cidField _ => some varintFault
  | _ => none

end Courier.Archive
