import Courier.Simulation.Client
/-!
# Fetches in a simulated world

Fetches of one step run side by side and are looked after in turn. When none of
them can go on the clock does, up to the next alarm.
-/

namespace Courier.Simulation

structure Running where
  job : Job
  /-- The context of the caller, as against that of the job. -/
  caller : Context
  /-- What cancels it in the end. -/
  handle : Option Signal
  /-- What cancels it at some time, if it has not been given yet. -/
  cancel : Option Announced
  ceiling : Ceiling
  began : Instant
  call : Call

structure Report where
  result : Except Error Stats
  /-- In order, with the time since the fetch began. -/
  events : List (Nat × Event)
  elapsed : Nat
  sink : Store
  /-- The error of the caller's context in the end. -/
  contextError : Option Error

/-- A fetch of a step, before, while and after it runs. -/
inductive Slot where
  | waiting (order : Order) (due : Instant)
  | running (r : Running)
  | done (r : Report)

/-! ## Beginning and ending -/

/-- The sink of an order: one that is kept under its name, or a fresh one. -/
def sinkFor (o : Order) : Sim Nat := do
  let w ← get
  match o.sink.bind fun n => w.namedSinks.lookup n with
  | some i => return i
  | none =>
    let i := w.sinks.length
    set { w with
      sinks := w.sinks ++ [({} : Store)]
      namedSinks := (o.sink.map fun n => (n, i)).toList ++ w.namedSinks }
    return i

/-- The context an order is placed under, with the handle that is kept for its timeout and with
the time at which it is cancelled. -/
def callerFor (o : Order) : Sim (Context × Option Signal × Option Announced) := do
  let began ← now
  let (c, handle) ← match o.timeout with
    | none => pure (Context.background, none)
    | some d => do
      let (c, s) ← withTimeout .background d
      pure (c, some s)
  match o.cancelAt with
  | none => return (c, handle, none)
  | some d =>
    let (c, s) ← withCancel c
    return (c, handle, some ⟨endOfSleep began d, s⟩)

/-- The context for a call. Only the client as a whole puts a ceiling on it. -/
def ceilingFor (e : Entrance) (c : Context) : Sim Ceiling :=
  match e with
  | .client => modifyGet fun w =>
    let (c, m) := Ceiling.impose c w.moment w.globalTimeout
    (c, { w with moment := m })
  | _ => return { context := c }

def beginFetch (e : Entrance) (order : Order) : Sim Running := do
  let began ← now
  let (caller, handle, cancel) ← callerFor order
  if let some a := cancel then
    if a.instant = began then give a.signal
  let ceiling ← ceilingFor e caller
  let job : Job := { order, context := ceiling.context, sink := ← sinkFor order }
  let (call, job) ← (Call.start e).run job
  return { job, caller, handle, cancel, ceiling, began, call }

/-- Ends a fetch with a result. Whether its context is yet to be cancelled makes no difference to
when it is. -/
def finishFetch (r : Running) (result : Except Error Stats) : Sim Report := do
  modify fun w => { w with moment := r.ceiling.lift w.moment }
  let contextError ← errorOf r.caller
  r.handle.forM give
  modify fun w => { w with announced := w.announced ++ r.cancel.toList }
  let elapsed := Instant.millis ((← now) - r.began)
  return {
    result
    events := r.job.events.reverse.map fun (t, e) => (Instant.millis (t - r.began), e)
    elapsed
    sink := ← sinkOf r.job.sink
    contextError }

/-! ## Going on -/

/-- Cancels the context of a fetch when it is time. -/
def cancelDue (r : Running) : Sim Running := do
  match r.cancel with
  | none => return r
  | some a =>
    if (← now) < a.instant then
      wakeAt a.instant
      return r
    noteChange
    give a.signal
    return { r with cancel := none }

/-- Lets a fetch go on until it waits for something. A crash is contained by the client. -/
def pollRunning (e : Entrance) (r : Running) : Sim Slot := do
  let (call, job) ← r.call.poll.run r.job
  let r := { r with call, job }
  if e matches .client then modify fun w => { w with crashed := false }
  match call with
  | .over result =>
    noteChange
    return .done (← finishFetch r result)
  | _ => return .running (← cancelDue r)

def pollSlot (e : Entrance) : Slot → Sim Slot
  | .waiting order due => do
    if (← now) < due then
      wakeAt due
      return .waiting order due
    if order.startAt ≠ Duration.zero then
      unless ← endWait do return .waiting order due
    pollRunning e (← beginFetch e order)
  | .running r => pollRunning e r
  | .done r => return .done r

/-- Lets the clock go on, and with it the block fetches that waited for this. -/
def tick (t : Instant) : Sim Unit := do
  passTime t
  modify fun w =>
    let due := (w.alarms.filter (·.1 ≤ t)).mergeSort fun a b => a.1 ≤ b.1
    { w with
      alarms := w.alarms.filter fun a => ¬ a.1 ≤ t
      ready := due.foldl (fun l a => if a.2 ∈ l then l else l ++ [a.2]) w.ready }

def nextAlarm (w : World) : Option Instant :=
  w.alarms.foldl (fun d a => Context.earlier d (some a.1)) w.wake

def isDone : Slot → Bool
  | .done _ => true
  | _ => false

/-- Lets fetches go on until all are done, or none ever will be. -/
def drive (e : Entrance) : Nat → List Slot → Sim (List Slot)
  | 0, l => return l
  | n + 1, l => do
    beginRound
    let l ← l.mapM (pollSlot e)
    let w ← get
    if l.all isDone || w.crashed then return l
    if w.changed then drive e n l
    else
      match nextAlarm w with
      | none => return l
      | some t =>
        tick t
        drive e n l

/-- Runs fetches side by side. After a crash that nobody contained there are none. -/
def fetchAll (e : Entrance) (orders : List Order) : Sim (List Report) := do
  if (← get).crashed then return []
  let t ← now
  let slots := orders.map fun o => Slot.waiting o (endOfSleep t o.startAt)
  let l ← drive e patience slots
  return l.filterMap fun
    | .done r => some r
    | _ => none

def fetch (e : Entrance) (o : Order) : Sim (Option Report) := return (← fetchAll e [o]).head?

end Courier.Simulation
