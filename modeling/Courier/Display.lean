import Courier.Context
import Courier.Orchestrator
import Courier.Text.Quoted
/-!
# Values shown for inspection

The forms in which values turn up in logs: the name of what they are, and their
fields between braces.
-/

namespace Courier

/-- Fields between braces, after a name. -/
def braced (name : String) (fields : List (String × String)) : String :=
  name ++ " \x7b " ++ ", ".intercalate (fields.map fun (k, v) => k ++ ": " ++ v) ++ " \x7d"

/-- The name of a protocol among the known ones. -/
def Protocol.inspect : Protocol → String
  | .bitswap => "TransportBitswap"
  | .graphsync => "TransportGraphsyncFilecoinv1"
  | .http => "TransportIpfsGatewayHttp"
  | .other n => "Other(" ++ Nat.repr n.toNat ++ ")"

/-- An error that has no inner one. -/
def Error.inspect? : Error → Option String
  | .cancelled => some "Cancelled"
  | .deadlineExceeded => some "DeadlineExceeded"
  | .noCandidates c => some ("NoCandidates(" ++ c.text ++ ")")
  | .failed c =>
    match c.source with
    | some _ => none
    | none => some (braced "Other" [("ctx", Quoted.encode c.context), ("src", "None")])

/-- A context that has no deadline. -/
def Context.inspect? (c : Context) : Option String :=
  match c.deadline with
  | some _ => none
  | none => some (braced "Context" [("deadline", "None"), ("depth", Nat.repr c.signals.length)])

def RetrievalId.inspect (r : RetrievalId) : String :=
  "RetrievalId(" ++ Nat.repr r.number.toNat ++ ")"

def boolText (b : Bool) : String := if b then "true" else "false"

/-- A permit, which may hold a slot. -/
def inspectPermit (held : Bool) : String := "ProviderPermit(" ++ boolText held ++ ")"

/-- What a fetch was asked with. -/
def inspectFetch (callback : Bool) : String :=
  braced "FetchConfig" [("events_callback", boolText callback)]

/-- An orchestrator and the protocols it has retrievers for. -/
def Orchestrator.inspect (o : Orchestrator) (registered : List Protocol) : String :=
  braced "CoreRetriever" [
    ("protocols", "[" ++ ", ".intercalate (registered.map Protocol.inspect) ++ "]"),
    ("started", boolText o.started)]

end Courier
