import Courier.Ident
import Courier.Protocol
/-!
# Candidates and requests

A candidate is a provider that announces it may serve a root, where it can be
reached and with which protocols. A request may be restricted to some
protocols; one that is not allows every protocol.
-/

namespace Courier

/-- A provider that may serve a root. -/
structure Candidate where
  root : Cid
  provider : ProviderId
  addrs : List String := []
  protocols : List Protocol := []
  deriving DecidableEq, Repr, Inhabited

def Candidate.supports (c : Candidate) (p : Protocol) : Bool := c.protocols.any (·.same p)

/-- A wish for a whole graph. -/
structure Request where
  id : RetrievalId
  root : Cid
  protocols : Option (List Protocol) := none
  deriving DecidableEq, Repr, Inhabited

def Request.allows (r : Request) (p : Protocol) : Bool :=
  match r.protocols with
  | none => true
  | some l => l.any (·.same p)

end Courier
