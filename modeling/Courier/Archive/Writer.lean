import Courier.Block
import Courier.Varint
/-!
# Writing an archive

The header is a binary map of two entries in a fixed order: the roots, each a
tagged byte string that starts with a zero octet, and the version. Every
number in it is written in its shortest form.
-/

namespace Courier.Archive

/-- The head of an item: its kind and a number, in the shortest form. -/
def head (kind : Nat) (n : Nat) : Bytes :=
  if n < 24 then [UInt8.ofNat (kind * 32 + n)]
  else if n < 0x100 then [UInt8.ofNat (kind * 32 + 24), UInt8.ofNat n]
  else if n < 0x10000 then UInt8.ofNat (kind * 32 + 25) :: Bytes.bigEndian 2 n
  else UInt8.ofNat (kind * 32 + 26) :: Bytes.bigEndian 4 n

def textItem (s : String) : Bytes :=
  let b := Bytes.ofText s
  head 3 b.length ++ b

/-- A root: tag 42 on its bytes behind a zero octet. -/
def rootItem (c : Cid) : Bytes :=
  head 6 42 ++ head 2 (c.bytes.length + 1) ++ 0 :: c.bytes

def header (roots : List Cid) : Bytes :=
  head 5 2 ++ textItem "roots" ++ head 4 roots.length ++ roots.flatMap rootItem ++
    textItem "version" ++ head 0 1

def frame (payload : Bytes) : Bytes := Varint.write payload.length ++ payload

def write (roots : List Cid) (blocks : List Block) : Bytes :=
  frame (header roots) ++ blocks.flatMap fun b => frame (b.cid.bytes ++ b.data)

end Courier.Archive
