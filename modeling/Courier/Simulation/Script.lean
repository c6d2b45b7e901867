import Courier.Context
import Courier.Block
import Courier.Event
/-!
# Scripts

What the collaborators of a simulated client do when they are called on. Before
they do what they are there for they may take some time, and then hang or fail.
-/

namespace Courier.Simulation

/-- What comes before the work of a collaborator. -/
structure Action where
  delay : Duration := Duration.zero
  hangs : Bool := false
  error : Option Error := none
  deriving Repr, Inhabited

structure Pending where
  due : Instant
  sleeps : Bool := false
  hangs : Bool := false
  error : Option Error := none
  deriving Repr, Inhabited

/-- Sleeps that cannot be told in instants last thirty years. -/
def longSleep : Nat := 30 * 365 * 86400 * 1000000000

/-- When a sleep that begins now is over. -/
def endOfSleep (now : Instant) (d : Duration) : Instant :=
  Instant.alarm ((Instant.add? now d).getD (now + longSleep))

def Action.begin (a : Action) (now : Instant) : Pending := {
  due := endOfSleep now a.delay
  sleeps := decide (a.delay ≠ Duration.zero)
  hangs := a.hangs
  error := a.error }

structure BlockScript where
  action : Action := {}
  /-- Sent in place of any block. -/
  wrong : Option Block := none
  deriving Repr, Inhabited

structure TransferScript where
  action : Action := {}
  /-- Sent in place of what is there. -/
  order : Option (List Block) := none
  deriving Repr, Inhabited

structure PeerScript where
  action : Action := {}
  /-- For some blocks something else. -/
  blocks : List (Cid × BlockScript) := []
  transfer : TransferScript := {}
  deriving Repr, Inhabited

def PeerScript.block (s : PeerScript) (c : Cid) : BlockScript :=
  (s.blocks.lookup c).getD { action := s.action }

/-- A retriever that announces its providers and then succeeds, if its action lets it. -/
structure RetrieverScript where
  action : Action := {}
  size : Nat := 0
  blocks : Nat := 0
  deriving Repr, Inhabited

/-- A sink that takes its time, and may take nothing more after some writes. -/
structure SinkScript where
  delay : Duration := Duration.zero
  /-- After how many writes it fails, and how. -/
  failure : Option (Nat × Error) := none
  deriving Repr, Inhabited

inductive Behavior where
  | succeeds (action : Action)
  /-- Fails when its context is over. -/
  | waits
  | panics
  deriving Repr

/-- What takes the place of the orchestrator. -/
structure StandIn where
  startError : Option Error := none
  behavior : Behavior
  deriving Repr

/-- How the collaborators of a client come about, and what they do first. -/
structure Cast where
  finder : Action := {}
  transferClient : Action := {}
  ready : Action := {}
  finderFactory : Action := {}
  hostFactory : Action := {}
  /-- What constructing the retriever of a protocol takes. -/
  create : List (Protocol × Action) := []
  /-- Retrievers that scripts take the place of. -/
  retrieve : List (Protocol × RetrieverScript) := []
  orchestratorError : Option Error := none
  standIn : Option StandIn := none
  deriving Repr, Inhabited

/-! ## Gateways -/

inductive BodyEnd where
  | complete
  | cut
  | stall
  deriving DecidableEq, Repr

/-- What a gateway answers every request with. -/
structure Gateway where
  silent : Bool := false
  status : Nat := 200
  reason : String := "OK"
  pieces : List Bytes := []
  bodyEnd : BodyEnd := .complete
  deriving Repr

/-! ## Fetches -/

structure Order where
  id : RetrievalId := ⟨1⟩
  root : Cid
  protocols : Option (List Protocol) := none
  /-- A store that is kept, or a fresh one. -/
  sink : Option String := none
  sinkScript : Option SinkScript := none
  startAt : Duration := Duration.zero
  timeout : Option Duration := none
  cancelAt : Option Duration := none
  quiet : Bool := false
  /-- Handed to a retriever that is called without an orchestrator. -/
  candidates : List Candidate := []
  deriving Repr, Inhabited

def Order.request (o : Order) : Request := { id := o.id, root := o.root, protocols := o.protocols }

end Courier.Simulation
