import Courier.Archive.Section
import Courier.Block
import Courier.Digest.Sha256
/-!
# Checking a block against its identifier

The identifier must end with its digest, and the digest must be that of the
data under SHA-256 or the identity. Any other hash function is refused, since
such a block cannot be checked.
-/

namespace Courier.Archive

def verify (b : Block) : Except Fault Unit := do
  let l ← layout b.cid.bytes
  if l.stop ≠ b.cid.bytes.length then throw (.trailingBytes b.cid)
  let digest := b.cid.bytes.drop l.start
  if l.hash = sha256Code then
    if Sha256.digest b.data = digest then return () else throw (.mismatch b.cid)
  else if l.hash = identityCode then
    if b.data = digest then return () else throw (.mismatch b.cid)
  else throw (.unsupportedHash l.hash b.cid)

/-- The version 1 identifier of raw data under SHA-256. -/
def cidFor (data : Bytes) : Cid := ⟨0x01 :: 0x55 :: 0x12 :: 0x20 :: Sha256.digest data⟩

end Courier.Archive
