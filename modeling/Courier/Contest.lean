import Courier.Course
import Courier.Store
/-!
# The contest of the attempts

The attempts of a retrieval, which race each other and share the session and
the sink. An attempt goes on only as long as the retrieval holds it: it is let
go of when it returns, and all that are left when the retrieval is over.
-/

namespace Courier.Orchestrator

/-- What an attempt does before it returns. -/
inductive Deed where
  | tells (e : Event)
  | writes (b : Block)
  | succeeds (p : ProviderId) (elapsed : Duration)
  | fails (p : ProviderId)
  deriving DecidableEq, Repr

/-- What happens next. -/
inductive Turn where
  | found (answer : Except Error (List Candidate))
  | does (p : Protocol) (d : Deed)
  | returns (p : Protocol) (result : Except Error Stats)
  /-- The caller's context is over. -/
  | ends (e : Error)

/-- A retrieval, the attempts it holds and what they share. -/
structure Contest where
  course : Course
  attempts : List Protocol := []
  session : Session
  sink : Store := {}

namespace Contest

/-- Which attempts are held after an effect. -/
def hold (l : List Protocol) : Effect → List Protocol
  | .attempt p _ => l ++ [p]
  | .abandon => []
  | .tell _ | .find => l

def goTo (r : Request) (c : Contest) (next : Phase × List Effect) : Contest :=
  { c with course := c.course.goTo r next, attempts := next.2.foldl hold c.attempts }

/-- A retrieval that was just asked for. -/
def begin (o : Orchestrator) (r : Request) (ended : Option Error) (session : Session)
    (sink : Store) : Contest :=
  { course := .begin o r ended, session, sink }

/-- Lets the retrieval learn something. -/
def learn (registered : List Protocol) (r : Request) (c : Contest) (i : Input) : Contest :=
  c.goTo r (step c.session registered r c.course.phase i)

def perform (c : Contest) : Deed → Contest
  | .tells e => { c with course := { c.course with told := c.course.told ++ [e] } }
  | .writes b => { c with sink := c.sink.insert b }
  | .succeeds p elapsed => { c with session := c.session.recordSuccess p elapsed }
  | .fails p => { c with session := c.session.recordFailure p }

/-- Takes one turn. Only an attempt that is held does anything. -/
def turn (registered : List Protocol) (r : Request) (c : Contest) : Turn → Contest
  | .found answer => c.learn registered r (.found answer)
  | .does p d => if p ∈ c.attempts then c.perform d else c
  | .returns p result =>
    if p ∈ c.attempts then
      { c with attempts := c.attempts.filter (· ≠ p) }.learn registered r (.attempted p result)
    else c
  | .ends e => c.learn registered r (.ended e)

def run (registered : List Protocol) (r : Request) (c : Contest) (ts : List Turn) : Contest :=
  ts.foldl (turn registered r) c

end Contest

end Courier.Orchestrator
