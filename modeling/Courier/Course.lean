import Courier.Orchestrator
/-!
# The course of a retrieval

A retrieval as those around it see it: what is told of it, how often the finder
is asked and which retrievers are called. While they race the retrievers tell
of their providers; one that gave its result or was dropped is silent.
-/

namespace Courier.Orchestrator

inductive Move where
  /-- The orchestrator learns something, the session being as it is by then. -/
  | learns (s : Session) (i : Input)
  /-- The retriever of a protocol tells of a provider. -/
  | emits (p : Protocol) (e : { e : Event // e.what.protocol?.isSome })

structure Course where
  phase : Phase
  told : List Event := []
  /-- The retrievers that were called, each with its candidates. -/
  called : List (Protocol × List Candidate) := []
  /-- How often the finder was asked. -/
  queries : Nat := 0

/-- Whether the retriever of a protocol still runs. -/
def Phase.runs : Phase → Protocol → Bool
  | .racing (.running entrants), p => decide (p ∈ entrants)
  | _, _ => false

namespace Course

def carry (r : Request) (c : Course) : Effect → Course
  | .tell what => { c with told := c.told ++ [r.event what] }
  | .find => { c with queries := c.queries + 1 }
  | .attempt p l => { c with called := c.called ++ [(p, l)] }
  | .abandon => c

def goTo (r : Request) (c : Course) (next : Phase × List Effect) : Course :=
  next.2.foldl (carry r) { c with phase := next.1 }

/-- A retrieval that was just asked for. -/
def begin (o : Orchestrator) (r : Request) (ended : Option Error) : Course :=
  ({ phase := .finding } : Course).goTo r (o.retrieve ended)

/-- Takes one move. Only a retriever that runs is heard. -/
def move (registered : List Protocol) (r : Request) (c : Course) : Move → Course
  | .learns s i => c.goTo r (step s registered r c.phase i)
  | .emits p e => if c.phase.runs p then { c with told := c.told ++ [e.1] } else c

def run (registered : List Protocol) (r : Request) (c : Course) (ms : List Move) : Course :=
  ms.foldl (move registered r) c

end Course

end Courier.Orchestrator
