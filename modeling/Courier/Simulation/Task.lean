import Courier.Attempt.Vigil
import Courier.Exchange.Trade
import Courier.Simulation.Gateway
import Courier.Simulation.Walk
/-!
# Retrievers in a simulated world

A call of a retriever is a task that is looked after until it has a result. It
tells of its providers as it goes, and may be dropped at any time.
-/

namespace Courier.Simulation

/-! ## Attempts -/

inductive Wait where
  | permit
  | transfer (p : Pending) (context : Context)
  /-- A gateway that has `limit` from `began` on. -/
  | gateway (a : Answer) (began : Instant) (limit : Duration)
  | writing (p : Pending) (b : Block)
  /-- Nothing was begun, since the context was over. -/
  | refused (e : Error)
  deriving Repr

structure AttemptTask (α : Type) where
  course : Fallback α
  /-- That of its permit. -/
  ticket : Ticket
  /-- How many pieces of a body it has taken. -/
  taken : Nat
  wait : Wait

/-- How the attempts over a transport are looked after. -/
structure Handling (α : Type) where
  transport : Transport α
  /-- Whether the caller's context is heeded while a block is written. -/
  guardsWriting : Bool

/-- How long a provider may go without delivering data. -/
def limitOf (p : ProviderId) : Sim Duration :=
  return ((← get).lending.session.policy.configOf p).timeout

/-- Gives back a permit, or stops waiting for it. -/
def leave (t : Ticket) : Sim Unit := do
  noteChange
  modify fun w => { w with lending := (w.lending.stop t).1 }

/-- Does what an attempt calls for, unless it has crashed. -/
def carryOut (t : Ticket) (e : Fallback.Effect) : JobM Unit := do
  if (← getThe World).crashed then return
  match e with
  | .tell h => tell h
  | .leave => leave t
  | .recordSuccess p d => onSession p (·.recordSuccess p d)
  | .recordFailure p => onSession p (·.recordFailure p)

def askPermit (p : ProviderId) : Sim Ticket := do
  let t ← modifyGet fun w => (w.ticket, { w with ticket := w.ticket + 1 })
  onSession p fun l => (l.start p t).1
  return t

/-- What a peer sends once its action is done. -/
def transferred (p : ProviderId) (root : Cid) : Sim Input := do
  match (← scriptOf p).transfer.order with
  | some bs => return .transfer bs
  | none =>
    let w ← get
    match w.network.transfer w.home p root with
    | .ok bs => return .transfer bs
    | .error e => return .failure e

def attend (t : Transport α) (course : Fallback α) (ticket : Ticket) (taken : Nat) :
    JobM (AttemptTask α) := do
  let { order, context, .. } ← get
  let p := course.candidate.provider
  match t.demand course.phase with
  | .permit =>
    noteChange
    return { course, ticket := ← askPermit p, taken := 0, wait := .permit }
  | .transfer =>
    let (context, _) ← withTimeout context (← limitOf p)
    match ← errorOf context with
    | some e => return { course, ticket, taken, wait := .refused e }
    | none =>
      let pending ← (← scriptOf p).transfer.action.start
      return { course, ticket, taken, wait := .transfer pending context }
  | .response e =>
    let wait := .gateway (← respond e order.root) (← now) (← limitOf p)
    return { course, ticket, taken, wait }
  | .body e =>
    let wait := .gateway (← nextPiece e taken) (← now) (← limitOf p)
    return { course, ticket, taken, wait }
  | .writing b => return { course, ticket, taken, wait := .writing (← beginWrite) b }

def AttemptTask.poll (h : Handling α) (a : AttemptTask α) : JobM (Option Input) := do
  let { order, context, .. } ← get
  let guarded : JobM (Option Input) := return (← watch context).map Input.failure
  match a.wait with
  | .refused e => return some (.failure e)
  | .permit =>
    unless ← mayGoOn do return none
    let w ← getThe World
    let lending? :=
      if w.lending.isHeld a.ticket then some w.lending else w.lending.resume? a.ticket
    match lending? with
    | some lending =>
      set { w with lending }
      if lending.session.isLimited a.course.candidate.provider then let _ ← endWait
      return some .permit
    | none => guarded
  | .transfer pending context =>
    unless ← mayGoOn do return none
    match ← pending.poll with
    | some (.ok ()) => return some (← transferred a.course.candidate.provider order.root)
    | some (.error e) => return some (.failure e)
    | none => return (← watch context).map Input.failure
  | .gateway (.input i) _ _ => return some i
  | .gateway .nothing began limit =>
    let due := endOfSleep began limit
    if due ≤ (← now) then return some (.silence limit)
    wakeAt due
    guarded
  | .writing pending b =>
    match ← pollWrite pending b with
    | some (.ok ()) => return some .written
    | some (.error e) => return some (.failure e)
    | none => if h.guardsWriting then guarded else return none

/-- A call of a retriever that falls back from candidate to candidate. -/
inductive Calling (α : Type) where
  | attempting (a : AttemptTask α)
  | over (r : Except Error Stats)

/-- Goes on after a step of the attempts, which was taken under a ticket. A call that crashes
holds no permit: it has not got one, or has just given it back. -/
def follow (t : Transport α) (ticket : Ticket) (taken : Nat)
    (step : List Fallback.Effect × Fallback.Verdict α) : JobM (Calling α) := do
  noteChange
  for e in step.1 do carryOut ticket e
  if (← getThe World).crashed then return .over (.error crashError)
  match step.2 with
  | .over r => return .over r
  | .goes course =>
    let a ← attend t course ticket taken
    if (← getThe World).crashed then return .over (.error crashError)
    return .attempting a

def startCalling (t : Transport α) (l : List Candidate) : JobM (Calling α) := do
  let { order, context, .. } ← get
  follow t 0 0 (Fallback.start t order.root (← now) (← errorOf context) l)

/-- Lets the attempts go on until they wait for something. -/
def pollCalling (h : Handling α) : Nat → Calling α → JobM (Calling α)
  | 0, c => return c
  | _, .over r => return .over r
  | n + 1, .attempting a => do
    match ← a.poll h with
    | none => return .attempting a
    | some i =>
      let { order, context, .. } ← get
      let taken := if i matches .body _ then a.taken + 1 else a.taken
      let c ← follow h.transport a.ticket taken
        (a.course.step h.transport order.root (← now) (← errorOf context) i)
      pollCalling h n c

def Calling.drop : Calling α → Sim Unit
  | .over _ => pure ()
  | .attempting a => leave a.ticket

def Handling.transfers : Handling Transfer.Phase :=
  { transport := Transfer.transport, guardsWriting := Vigil.guardsWriting .transfer }

def Handling.downloads : Handling Download.Phase :=
  { transport := Download.transport, guardsWriting := Vigil.guardsWriting .download }

/-! ## Tasks -/

inductive Task where
  /-- Nobody has looked after it. -/
  | fresh (r : Retriever) (l : List Candidate)
  | scripted (p : Protocol) (s : RetrieverScript) (l : List Candidate) (began : Instant)
    (pending : Pending)
  | walk (l : List Candidate) (w : WalkTask)
  | transfers (c : Calling Transfer.Phase)
  | downloads (c : Calling Download.Phase)
  | over (r : Except Error Stats)

/-- Tells that all providers of a walk have failed. -/
def failAll (l : List Candidate) (e : Error) : JobM Unit :=
  (Trade.failures l e).forM tell

def Retriever.call (l : List Candidate) : Retriever → JobM Task
  | .scripted p s => do
    l.forM fun c => tell (.providerStarted c.provider p)
    return .scripted p s l (← now) (← s.action.start)
  | .exchange => do
    (Trade.starts l).forM tell
    match ← errorOf (← get).context with
    | some e =>
      failAll l e
      return .over (.error e)
    | none =>
      if (← getThe World).exchange.admits then
        return .walk l (← startWalk (l.map (·.provider)))
      crash
      return .over (.error crashError)
  | .transfer => return .transfers (← startCalling Transfer.transport l)
  | .gateway => return .downloads (← startCalling Download.transport l)

/-- Lets a task that has begun go on until it waits for something. -/
def Task.proceed : Task → JobM Task
  | .scripted p s l began pending => do
    match ← pending.poll with
    | none => return .scripted p s l began pending
    | some (.error e) => return .over (.error e)
    | some (.ok ()) =>
      return .over (.ok {
        root := (← get).order.root
        provider := l.head?.map (·.provider)
        protocol := p
        size := s.size
        blocks := s.blocks
        duration := (← now).since began })
  | .walk l w => do
    match ← w.poll with
    | (w, none) => return .walk l w
    | (_, some (.error e)) =>
      failAll l e
      return .over (.error e)
    | (_, some r) => return .over r
  | .transfers c => do
    match ← pollCalling Handling.transfers patience c with
    | .over r => return .over r
    | c => return .transfers c
  | .downloads c => do
    match ← pollCalling Handling.downloads patience c with
    | .over r => return .over r
    | c => return .downloads c
  | t => return t

def Task.poll : Task → JobM Task
  | .fresh r l => do
    noteChange
    (← r.call l).proceed
  | t => t.proceed

def Task.result? : Task → Option (Except Error Stats)
  | .over r => some r
  | _ => none

def Task.drop : Task → JobM Unit
  | .walk _ w => dropWalk w
  | .transfers c => c.drop
  | .downloads c => c.drop
  | _ => pure ()

end Courier.Simulation
