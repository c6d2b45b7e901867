import Courier.Archive.Fault
import Courier.Duration
import Courier.Protocol
/-!
# Errors

An error is one of three outcomes every caller can tell apart, or a failure
with a cause. The wording of a cause is a context and the text of an inner
error, if it has one.
-/

namespace Courier

/-- What a failure comes from. -/
inductive Cause where
  /-- A failure a collaborator reports in its own words. -/
  | reported (context : String) (source : Option String)
  | cid (fault : Cid.Fault)
  | protocol (fault : Protocol.Fault)
  | archive (fault : Archive.Fault)
  | notStarted
  | alreadyStarted
  | providerTimedOut
  | transferStart
  | blockTimedOut (limit : Duration)
  | wrongBlock (requested received : Cid)
  | noBlockCandidate (cid : Cid)
  | noAddress
  | noData (endpoint : String) (limit : Duration)
  | request (fault : String)
  | body (fault : String)
  | streamStart (cid : Cid)
  | emptyStream
  | unreachable (provider : ProviderId)
  | missing (provider : ProviderId) (cid : Cid)
  | networkOptions (fault : String)
  deriving DecidableEq, Repr

def Cause.context : Cause → String
  | .reported c _ => c
  | .cid (.multibase s) => "unsupported multibase for cid: " ++ s
  | .cid (.encoding _) => "invalid cid"
  | .cid .empty => "empty cid"
  | .protocol (.number _) => "invalid protocol"
  | .protocol (.unrecognized s) => "unrecognized protocol: " ++ s
  | .archive f => f.message
  | .notStarted => "retriever not started"
  | .alreadyStarted => "retriever already started"
  | .providerTimedOut => "provider retrieval timed out"
  | .transferStart => "transfer did not start at the requested root"
  | .blockTimedOut d => "block request timed out after " ++ d.text
  | .wrongBlock c d => "requested " ++ c.text ++ ", received " ++ d.text
  | .noBlockCandidate c => "no candidate for block " ++ c.text
  | .noAddress => "no http address"
  | .noData e d => "no data from " ++ e ++ " within " ++ d.text
  | .request _ => "http request failed"
  | .body _ => "http body failed"
  | .streamStart c => "car stream starts at " ++ c.text ++ ", not the requested root"
  | .emptyStream => "car stream held no blocks"
  | .unreachable p => "provider unreachable: " ++ p.text
  | .missing p c => p.text ++ " does not have " ++ c.text
  | .networkOptions _ => "invalid network options"

def Cause.source : Cause → Option String
  | .reported _ s => s
  | .cid (.encoding f) => some f.message
  | .protocol (.number f) => some f.message
  | .archive f => f.source
  | .request s => some s
  | .body s => some s
  | .networkOptions s => some s
  | _ => none

inductive Error where
  | cancelled
  | deadlineExceeded
  | noCandidates (root : Cid)
  | failed (cause : Cause)
  deriving DecidableEq, Repr

namespace Error

def message : Error → String
  | .cancelled => "context cancelled"
  | .deadlineExceeded => "context deadline exceeded"
  | .noCandidates c => "no candidates found for " ++ c.text
  | .failed c => c.context ++ " (src: " ++ c.source.getD "None" ++ ")"

/-- The error of a context that is over, as against one of the work under it. -/
def isContext : Error → Bool
  | .cancelled | .deadlineExceeded => true
  | _ => false

/-- The texts of the errors behind this one. A failure always has a first one, which stands for
the inner error, and the inner error itself if there is one. -/
def sources : Error → List String
  | .failed c => c.source.getD "None" :: c.source.toList
  | _ => []

end Error

end Courier
