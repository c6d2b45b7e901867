import Courier.Event
import Courier.Race
import Courier.Registry
import Courier.Session
/-!
# Orchestrating a retrieval

The candidates found for a root are filtered by policy and by what can be
retrieved with, and ranked. Every registered protocol that the request allows
then retrieves from the candidates that announce it, all at the same time, and
the first success wins. The end of the caller's context ends it all.
-/

namespace Courier

namespace Orchestrator

/-! ## Eligible candidates -/

/-- Whether there is a retriever for a protocol that the request allows. -/
def usable (registered : List Protocol) (r : Request) (p : Protocol) : Bool :=
  r.allows p && registered.any (·.same p)

/-- The candidates to retrieve from, best first. -/
def eligible (s : Session) (registered : List Protocol) (r : Request) (found : List Candidate) :
    List Candidate :=
  s.sortCandidates <| found.filter fun c => s.accepts c && c.protocols.any (usable registered r)

/-- The protocols to retrieve with, each with its candidates. -/
def shares (registered : List Protocol) (r : Request) (l : List Candidate) :
    List (Protocol × List Candidate) :=
  ((registered.filter r.allows).map fun p => (p, l.filter (·.supports p))).filter (·.2 ≠ [])

/-! ## One retrieval -/

inductive Phase where
  | finding
  | racing (race : Race)
  | over (result : Except Error Stats)
  deriving Repr

inductive Input where
  | found (r : Except Error (List Candidate))
  | attempted (p : Protocol) (r : Except Error Stats)
  | ended (e : Error)
  deriving Repr

inductive Effect where
  | tell (what : Happening)
  | find
  | attempt (p : Protocol) (l : List Candidate)
  /-- Whatever still runs is dropped. -/
  | abandon
  deriving Repr

/-- Tells of the result, and that this was all. -/
def close (r : Except Error Stats) : Phase × List Effect :=
  (.over r, [
    .abandon,
    .tell (match r with
      | .ok stats => .success stats
      | .error e => .failed e),
    .tell .finished])

/-- Begins a retrieval. `ended` is the error of the caller's context, if that is over. -/
def start (ended : Option Error) : Phase × List Effect :=
  match ended with
  | some e =>
    let (phase, effects) := close (.error e)
    (phase, .tell .started :: effects)
  | none => (.finding, [.tell .started, .find])

def dispatch (s : Session) (registered : List Protocol) (r : Request) (found : List Candidate) :
    Phase × List Effect :=
  let l := eligible s registered r found
  let told : List Effect := [.tell (.candidatesFound found), .tell (.candidatesFiltered l)]
  match shares registered r l with
  | [] =>
    let (phase, effects) := close (.error (.noCandidates r.root))
    (phase, told ++ effects)
  | parts =>
    (.racing (.running (parts.map (·.1))), told ++ parts.map fun (p, l) => .attempt p l)

/-- Takes a retrieval on; one that is over stays so. -/
def step (s : Session) (registered : List Protocol) (r : Request) :
    Phase → Input → Phase × List Effect
  | .over result, _ => (.over result, [])
  | _, .ended e => close (.error e)
  | .finding, .found (.error e) => close (.error e)
  | .finding, .found (.ok l) => dispatch s registered r l
  | .racing race, .attempted p result =>
    match race.settle p result with
    | .over result => close result
    | race => (.racing race, [])
  | phase, _ => (phase, [])

end Orchestrator

/-! ## Starting it -/

/-- An orchestrator retrieves nothing before it is started, which can be done once. -/
structure Orchestrator where
  started : Bool := false
  deriving DecidableEq, Repr, Inhabited

def Orchestrator.launch (o : Orchestrator) : Orchestrator × Except Error Unit :=
  if o.started then (o, .error (.failed .alreadyStarted)) else ({ o with started := true }, .ok ())

/-- Begins a retrieval, if the orchestrator was started. `ended` is the error of the caller's
context, if that is over. -/
def Orchestrator.retrieve (o : Orchestrator) (ended : Option Error) :
    Orchestrator.Phase × List Orchestrator.Effect :=
  if o.started then Orchestrator.start ended else (.over (.error (.failed .notStarted)), [])

end Courier
