import Courier.Candidate
import Courier.Error
/-!
# Events

What is told about a retrieval while it runs. Every event names the retrieval
and its root. A retrieval as a whole is told of by its orchestrator, the
providers it turns to by the retriever of their protocol.
-/

namespace Courier

/-- The outcome of a retrieval that succeeded. -/
structure Stats where
  root : Cid
  /-- The provider that served the root, if a single one did. -/
  provider : Option ProviderId
  protocol : Protocol
  size : Nat
  blocks : Nat
  /-- From the start of the attempt that succeeded. -/
  duration : Duration
  deriving DecidableEq, Repr

inductive Happening where
  | started
  | candidatesFound (candidates : List Candidate)
  | candidatesFiltered (candidates : List Candidate)
  | providerStarted (provider : ProviderId) (protocol : Protocol)
  | firstByte (provider : ProviderId) (protocol : Protocol) (elapsed : Duration)
  | providerFailed (provider : ProviderId) (protocol : Protocol) (error : Error)
  | success (stats : Stats)
  | failed (error : Error)
  | finished
  deriving DecidableEq, Repr

/-- Something that happened to a retrieval. -/
structure Event where
  id : RetrievalId
  root : Cid
  what : Happening
  deriving DecidableEq, Repr

/-- What is told about a retrieval as a whole. -/
def Request.event (r : Request) (what : Happening) : Event := { id := r.id, root := r.root, what }

namespace Happening

/-- The name by which subscribers know it. -/
def name : Happening → String
  | .started => "started"
  | .candidatesFound _ => "candidates-found"
  | .candidatesFiltered _ => "candidates-filtered"
  | .providerStarted _ _ => "provider-started"
  | .firstByte _ _ _ => "first-byte"
  | .providerFailed _ _ _ => "provider-failed"
  | .success _ => "success"
  | .failed _ => "failed"
  | .finished => "finished"

/-- The protocol of an event about a provider. -/
def protocol? : Happening → Option Protocol
  | .providerStarted _ p | .firstByte _ p _ | .providerFailed _ p _ => some p
  | _ => none

end Happening

end Courier
