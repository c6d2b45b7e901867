import Courier.Simulation.World
/-!
# Walks in a simulated world

The fetches of a walk are looked after in the order in which they became able
to go on. A request is sent as soon as the round allows it, and ends when its peer
has answered or its context is over.
-/

namespace Courier.Simulation

structure WalkTask where
  key : Exchange.Key
  began : Instant
  write : Option (Pending × Block) := none
  result : Option (Except Error Exchange.Tally) := none
  deriving Repr

abbrev WalkM := StateT WalkTask JobM

/-! ## Requests -/

/-- The script of a peer; without one it answers at once. -/
def scriptOf (p : ProviderId) : Sim PeerScript := return ((← get).scripts.lookup p).getD {}

/-- What the peer of a request answers once its action is done. -/
def BlockRequest.answer (r : BlockRequest) : Sim (Except Error Block) := do
  match ((← scriptOf r.provider).block r.cid).wrong with
  | some b => return .ok b
  | none =>
    let w ← get
    return w.network.request w.home r.provider r.cid

def requestOf? (t : Ticket) : Sim (Option BlockRequest) := return (← get).requests.lookup t

def alarmAt (due : Instant) (t : Ticket) : Sim Unit :=
  modify fun w => if w.moment.now < due then { w with alarms := w.alarms ++ [(due, t)] } else w

/-- Prepares to ask a peer for a block. -/
def beginRequest (caller : Context) (t : Ticket) (p : ProviderId) (c : Cid) : Sim Unit := do
  let (context, _) ← withTimeout caller (← get).exchange.limit
  let pending ← ((← scriptOf p).block c).action.start
  let refused ← errorOf context
  modify fun w => { w with
    requests := w.requests ++ [(t, { pending, provider := p, cid := c, context, refused })] }

def sendRequest (t : Ticket) (r : BlockRequest) : Sim Unit := do
  modify fun w =>
    let requests := w.requests.map fun e => if e.1 = t then (t, { r with isSent := true }) else e
    { w with requests, peak := max w.peak (requests.countP (·.2.isSent)) }
  alarmAt r.pending.due t
  if let some d := r.context.deadline then alarmAt (Instant.alarm d) t

def putOff (t : Ticket) : Sim Unit := do
  noteChange
  modify fun w => { w with deferred := w.deferred ++ [t] }

def BlockRequest.poll (t : Ticket) (r : BlockRequest) : Sim (Option (Except Error Block)) := do
  if let some e := r.refused then return some (.error e)
  unless ← mayGoOn do
    putOff t
    return none
  unless r.isSent do sendRequest t r
  match ← r.pending.poll with
  | some (.ok ()) => return some (← r.answer)
  | some (.error e) => return some (.error e)
  | none =>
    match ← errorOf r.context with
    | some e => return if ← endWait then some (.error e) else none
    | none => return none

def endRequest (t : Ticket) : Sim Unit :=
  modify fun w => { w with
    requests := w.requests.filter (·.1 ≠ t)
    alarms := w.alarms.filter (·.2 ≠ t) }

def wakeFetch (t : Ticket) : Sim Unit := do
  noteChange
  modify fun w => if t ∈ w.ready then w else { w with ready := w.ready ++ [t] }

/-! ## Steps -/

/-- Forgets the requests nobody waits for any more. -/
def forgetRequests : Sim Unit :=
  modify fun w => { w with
    requests := w.requests.filter fun r => (w.exchange.owner? r.1).isSome
    alarms := w.alarms.filter fun a => (w.exchange.owner? a.2).isSome
    ready := w.ready.filter fun t => (w.exchange.owner? t).isSome
    deferred := w.deferred.filter fun t => (w.exchange.owner? t).isSome }

def setExchange (x : Exchange) : Sim Unit := modify fun w => { w with exchange := x }

def perform : Exchange.Effect → WalkM Unit
  | .wake t => wakeFetch t
  | .ask t p c => do beginRequest (← getThe Job).context t p c
  | .firstBlock _ p => do
    let elapsed := (← now).since (← get).began
    tell (.firstByte p .bitswap elapsed)
  | .write _ b => do
    let p ← beginWrite
    modify fun task => { task with write := some (p, b) }
  | .finish _ r => do
    noteChange
    forgetRequests
    modify fun task => { task with result := some r }

def exchangeStep (a : Exchange.Action) : WalkM Unit := do
  let (x, effects) := (← getThe World).exchange.step a
  setExchange x
  for e in effects do perform e

/-- Lets a fetch go on until it waits for something. -/
def pollFetch : Nat → Ticket → WalkM Unit
  | 0, _ => pure ()
  | n + 1, t => do
    match ← requestOf? t with
    | none =>
      match (← getThe World).exchange.need? t with
      | none => pure ()
      | some .nothing =>
        exchangeStep (.advance t)
        pollFetch n t
      | some .slot =>
        if ← endWait then
          exchangeStep (.advance t)
          pollFetch n t
        else putOff t
      | some .others => unless ← mayGoOn do putOff t
    | some r =>
      match ← r.poll t with
      | none => pure ()
      | some a =>
        noteChange
        endRequest t
        exchangeStep (.answer t (← errorOf (← getThe Job).context) a)
        if (← requestOf? t).isSome then pollFetch n t

/-- The next fetch of a walk to look after. -/
def nextReady (k : Exchange.Key) : Sim (Option Ticket) := do
  let w ← get
  match w.exchange.walk? k with
  | none => return none
  | some walk =>
    match w.ready.find? fun t => (walk.fetch? t).isSome with
    | none => return none
    | some t =>
      set { w with ready := w.ready.erase t }
      return some t

def pollWalk : Nat → WalkM Unit
  | 0 => pure ()
  | n + 1 => do
    let task ← get
    if task.result.isSome then return
    match task.write with
    | some (p, b) =>
      match ← pollWrite p b with
      | none => pure ()
      | some r =>
        set { task with write := none }
        exchangeStep (.written task.key r)
        pollWalk n
    | none =>
      match ← nextReady task.key with
      | none => pure ()
      | some t =>
        pollFetch patience t
        pollWalk n

/-! ## A walk under its caller's context -/

def startWalk (providers : List ProviderId) : JobM WalkTask := do
  let key := ((← getThe World).exchange.start (← get).order.root providers).1
  let task : WalkTask := { key, began := ← now }
  let (_, task) ← (exchangeStep (.start (← get).order.root providers)).run task
  return task

def dropWalk (task : WalkTask) : JobM Unit := do
  let _ ← (exchangeStep (.drop task.key)).run task
  forgetRequests

/-- The walk, and its result once it is over. -/
def WalkTask.poll (task : WalkTask) : JobM (WalkTask × Option (Except Error Stats)) := do
  unless ← mayGoOn do return (task, none)
  let ((), task) ← (pollWalk patience).run task
  match task.result with
  | some (.error e) => return (task, some (.error e))
  | some (.ok tally) =>
    return (task, some (.ok (tally.stats (← get).order.root ((← now).since task.began))))
  | none =>
    match ← watch (← get).context with
    | none => return (task, none)
    | some e =>
      dropWalk task
      return (task, some (.error e))

end Courier.Simulation
