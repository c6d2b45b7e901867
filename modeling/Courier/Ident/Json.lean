import Courier.Ident
import Courier.Json.Shape
/-!
# Identities in JSON

Both kinds of identifier are base64url strings in JSON, without the letter
that announces the encoding in a content identifier's text.
-/

namespace Courier

open Json (Doc)

def readId (d : Doc) : Except Json.Fault Bytes := do
  let s ← d.string
  match Base64Url.decode (Bytes.ofText s) with
  | .ok b => return b
  | .error _ => throw .mismatch

def Cid.toJson (c : Cid) : Json.Value := .text (Base64Url.encode c.bytes)

def ProviderId.toJson (p : ProviderId) : Json.Value := .text (Base64Url.encode p.bytes)

end Courier
