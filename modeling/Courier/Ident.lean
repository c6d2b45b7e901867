import Courier.Text.Base64Url
import Courier.Text.Hex
/-!
# Identities

Contents and providers are named by opaque byte strings, retrievals by a
number. A content identifier is written with the letter `u`, which announces
base64url, in front of its bytes; a provider identifier without it.
-/

namespace Courier

structure Cid where
  bytes : Bytes
  deriving DecidableEq, Repr, Inhabited

structure ProviderId where
  bytes : Bytes
  deriving DecidableEq, Repr, Inhabited

structure RetrievalId where
  number : UInt64
  deriving DecidableEq, Repr, Inhabited

namespace Cid

def text (c : Cid) : String := "u" ++ Base64Url.encode c.bytes

/-- Why a text names no content. -/
inductive Fault where
  | multibase (text : String)
  | encoding (fault : Base64Url.Fault)
  | empty
  deriving DecidableEq, Repr

/-- Reads the written form; an identifier has one octet at the least. -/
def parse (s : String) : Except Fault Cid :=
  match s.toList with
  | 'u' :: r =>
    match Base64Url.decode (r.flatMap String.utf8EncodeChar) with
    | .error e => .error (.encoding e)
    | .ok [] => .error .empty
    | .ok b => .ok ⟨b⟩
  | _ => .error (.multibase s)

end Cid

def ProviderId.text (p : ProviderId) : String := Base64Url.encode p.bytes

def RetrievalId.text (r : RetrievalId) : String := String.ofList (Hex.digits 16 r.number)

end Courier
