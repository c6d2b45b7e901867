import Courier.Broadcast
import Courier.Context.Work
import Courier.Exchange.Basic
import Courier.Finder
import Courier.Json.Value
import Courier.Lending
import Courier.Network.Basic
import Courier.Orchestrator
import Courier.Simulation.Script
import Courier.Store
/-!
# A simulated world

A client, its peers and those who watch it, on a clock that stands still while
anything can go on and then goes on to the next alarm. Steps are taken in the
world; each says whether it changed anything and when it wants to be woken.

Everyone is looked after in rounds. In one round no more than 128 waits come to
their end; whoever could go on after that is put off to the next round, and the
block fetches that were put off come back in reverse order.
-/

namespace Courier.Simulation

structure BlockRequest where
  pending : Pending
  provider : ProviderId
  cid : Cid
  context : Context
  /-- The error of the context if it was over from the start. -/
  refused : Option Error := none
  isSent : Bool := false
  deriving Repr

/-- What retrieves over one protocol. -/
inductive Retriever where
  | scripted (p : Protocol) (s : RetrieverScript)
  | exchange
  | transfer
  | gateway
  deriving Repr

def Retriever.protocol : Retriever → Protocol
  | .scripted p _ => p
  | .exchange => .bitswap
  | .transfer => .graphsync
  | .gateway => .http

/-- What the collaborators of a client noted. -/
inductive LogEntry where
  | finder
  | host (options : Json.Object)
  | session (live : Bool)
  | retriever (p : Protocol)
  | orchestrator (protocols : List Protocol)
  | start
  | subscribed
  | unsubscribed
  /-- A retrieval under a context: the time until its deadline, and its error. -/
  | retrieval (left : Option Nat) (e : Option Error)
  | fetch (callback : Bool)
  deriving Repr

/-- A subscriber and what it knows. -/
structure Subscription where
  name : String
  id : SubscriberId
  leavesOn : Option String
  /-- What it has been told, the latest first. -/
  told : List (Instant × Event) := []
  deriving Repr

/-- The most waits that come to their end in one round. -/
def roundLength : Nat := 128

structure World where
  moment : Moment := {}
  network : Network := {}
  home : String := Network.common
  scripts : List (ProviderId × PeerScript) := []
  /-- Who listens, by host and port. -/
  gateways : List (String × Gateway) := []
  cast : Cast := {}
  finder : Finder := {}
  lending : Lending := {}
  exchange : Exchange := { limit := Duration.zero, width := 1, shared := { free := 1 } }
  registry : Registry Retriever := {}
  orchestrator : Orchestrator := {}
  globalTimeout : Duration := Duration.zero
  /-- The next ticket for a permit. -/
  ticket : Ticket := 0
  requests : List (Ticket × BlockRequest) := []
  /-- The block fetches to look after, in order. -/
  ready : List Ticket := []
  /-- When to look after which block fetch, in the order of the asking. -/
  alarms : List (Instant × Ticket) := []
  /-- The block fetches that were put off in this round, in order. -/
  deferred : List Ticket := []
  /-- How many more waits may come to their end in this round. -/
  allowance : Nat := roundLength
  /-- The most requests for blocks in flight since this was last asked. -/
  peak : Nat := 0
  sinks : List Store := []
  namedSinks : List (String × Nat) := []
  broadcast : Broadcast Unit := {}
  subscriptions : List Subscription := []
  log : List LogEntry := []
  /-- The context last given to a stand-in. -/
  lastContext : Context := {}
  /-- When to go on at the latest. -/
  wake : Option Instant := none
  changed : Bool := false
  /-- Signals that will be given whatever becomes of those who wait for them. -/
  announced : List Announced := []
  /-- Something was to be made that there cannot be, and whoever needed it stops short. -/
  crashed : Bool := false
  /-- The session was being changed when this happened. Whoever uses it from then on crashes. -/
  jammed : Bool := false

abbrev Sim := StateM World

/-- The most steps anything is let take without time passing. -/
def patience : Nat := 1000000

def now : Sim Instant := return (← get).moment.now

def noteChange : Sim Unit := modify fun w => { w with changed := true }

def wakeAt (t : Instant) : Sim Unit :=
  modify fun w => { w with wake := Context.earlier w.wake (some t) }

def addLog (e : LogEntry) : Sim Unit := modify fun w => { w with log := w.log ++ [e] }

/-- Lets the clock go on. What was announced for an earlier instant has happened by then. -/
def passTime (t : Instant) : Sim Unit :=
  modify fun w =>
    let (past, announced) := w.announced.partition (·.instant < t)
    let moment := past.foldl (fun m a => m.give a.signal) (w.moment.advanceTo t)
    { w with moment, announced }

/-! ## Crashes -/

/-- Stops short whatever is being looked after. -/
def crash : Sim Unit := modify fun w => { w with crashed := true }

def crashError : Error := .failed (.reported "panicked" none)

/-- Runs a step of the session that needs the entry of a provider. -/
def onSession (p : ProviderId) (f : Lending → Lending) : Sim Unit := do
  let w ← get
  if w.jammed || !w.lending.session.admits p then set { w with crashed := true, jammed := true }
  else set { w with lending := f w.lending }

/-! ## Waiting -/

/-- Whether another wait may end in this round. If not, there will be a further one. -/
def mayGoOn : Sim Bool := do
  if (← get).allowance ≠ 0 then return true
  noteChange
  return false

def endWait : Sim Bool := do
  if ← mayGoOn then
    modify fun w => { w with allowance := w.allowance - 1 }
    return true
  return false

def beginRound : Sim Unit :=
  modify fun w => { w with
    changed := false
    wake := none
    allowance := roundLength
    deferred := []
    ready := w.deferred.reverse.foldl (fun l t => if t ∈ l then l else l ++ [t]) w.ready }

def Pending.poll (p : Pending) : Sim (Option (Except Error Unit)) := do
  if (← now) < p.due then
    wakeAt p.due
    return none
  if p.hangs then return none
  if p.sleeps then
    unless ← endWait do return none
  return some (match p.error with
    | some e => .error e
    | none => .ok ())

def Action.start (a : Action) : Sim Pending := return a.begin (← now)

def errorOf (c : Context) : Sim (Option Error) := return c.error? (← get).moment

/-- The error of a context, or a note of when it may be over. -/
def watch (c : Context) : Sim (Option Error) := do
  match ← errorOf c with
  | some e => return if ← endWait then some e else none
  | none =>
    if let some d := c.deadline then wakeAt (Instant.alarm d)
    return none

def withTimeout (c : Context) (d : Duration) : Sim (Context × Signal) :=
  modifyGet fun w =>
    let (c, s, m) := c.withTimeout w.moment d
    ((c, s), { w with moment := m })

def withCancel (c : Context) : Sim (Context × Signal) :=
  modifyGet fun w =>
    let (c, s, m) := c.withCancel w.moment
    ((c, s), { w with moment := m })

def give (s : Signal) : Sim Unit := modify fun w => { w with moment := w.moment.give s }

/-! ## Fetches that run -/

/-- A fetch, with what its retrievers need to know of it. -/
structure Job where
  order : Order
  context : Context
  sink : Nat
  broadcasts : Bool := false
  /-- What its caller was told, the latest first. -/
  events : List (Instant × Event) := []
  deriving Repr

abbrev JobM := StateT Job Sim

def actOn (a : Broadcast.Act Unit) : Sim (Option (Broadcast.Delivery Unit)) :=
  modifyGet fun w =>
    let (broadcast, d) := w.broadcast.act a
    (d, { w with broadcast })

/-- Calls a subscriber, which unsubscribes if it leaves at this event. -/
def callSubscriber (n : Nat) (i : SubscriberId) : Sim Unit := do
  let t ← now
  if let some d ← actOn (.call n i) then
    modify fun w => { w with
      subscriptions := w.subscriptions.map fun s =>
        if s.id = i then { s with told := (t, d.event) :: s.told } else s }
    if (← get).subscriptions.any fun s => s.id = i ∧ s.leavesOn = some d.event.what.name then
      discard <| actOn (.unsubscribe i)

def broadcast (e : Event) (callback : JobM Unit) : JobM Unit := do
  let n := (← getThe World).broadcast.emissions.length
  discard <| actOn (.emit () e)
  callback
  discard <| actOn (.returns n)
  for i in (← getThe World).broadcast.waiting n do callSubscriber n i

/-- Tells the caller, and then whoever else is to be told. -/
def tell (what : Happening) : JobM Unit := do
  noteChange
  let e := (← get).order.request.event what
  let t ← now
  let callback : JobM Unit :=
    modify fun j => if j.order.quiet then j else { j with events := (t, e) :: j.events }
  if (← get).broadcasts then broadcast e callback else callback

/-! ## Sinks -/

def beginWrite : JobM Pending := do
  let delay := ((← get).order.sinkScript.map (·.delay)).getD Duration.zero
  ({ delay : Action }).start

def sinkOf (i : Nat) : Sim Store := return ((← get).sinks[i]?).getD {}

def pollWrite (p : Pending) (b : Block) : JobM (Option (Except Error Unit)) := do
  match ← p.poll with
  | none => return none
  | some _ =>
    noteChange
    let j ← get
    let s ← sinkOf j.sink
    if let some (writes, e) := j.order.sinkScript.bind (·.failure) then
      if writes ≤ s.puts then return some (.error e)
    modifyThe World fun w => { w with sinks := w.sinks.set j.sink (s.insert b) }
    return some (.ok ())

end Courier.Simulation
