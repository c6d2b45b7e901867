import Courier.Ceiling
import Courier.Simulation.Task
/-!
# A simulated client

A fetch goes through the orchestrator, or through whatever stands in for it,
under the time a fetch may take. A retriever can also be called by itself.
-/

namespace Courier.Simulation

/-! ## Orchestrated retrievals -/

/-- A retrieval by the orchestrator. -/
structure Orchestrated where
  phase : Orchestrator.Phase
  finding : Option Pending := none
  attempts : List (Protocol × Task) := []

abbrev OrchestratedM := StateT Orchestrated JobM

/-- Does what the orchestrator calls for, unless it has crashed. The candidates are ranked after
it was told that they were found, for which the session has to be in order. -/
def carryOrder (e : Orchestrator.Effect) : OrchestratedM Unit := do
  if e matches .tell (.candidatesFiltered _) then
    if (← getThe World).jammed then crash
  if (← getThe World).crashed then return
  match e with
  | .tell h => tell h
  | .find => do
    let p ← (← getThe World).cast.finder.start
    modify fun o => { o with finding := some p }
  | .attempt p l => do
    if let some r := (← getThe World).registry.find? p then
      modify fun o => { o with attempts := o.attempts ++ [(p, .fresh r l)] }
  | .abandon => do
    for (_, t) in (← get).attempts do t.drop
    modify fun o => { o with attempts := [] }

def goTo (step : Orchestrator.Phase × List Orchestrator.Effect) : OrchestratedM Unit := do
  noteChange
  modify fun o => { o with phase := step.1 }
  for e in step.2 do carryOrder e

/-- Gives the orchestrator what it waits for. -/
def input (i : Orchestrator.Input) : OrchestratedM Unit := do
  let w ← getThe World
  let r := (← getThe Job).order.request
  goTo (Orchestrator.step w.lending.session w.registry.protocols r (← get).phase i)

/-- Looks after the attempts in order, up to the first that has a result. -/
def pollAttempts (done : List (Protocol × Task)) :
    List (Protocol × Task) → OrchestratedM (Option (Protocol × Except Error Stats))
  | [] => do
    modify fun o => { o with attempts := done }
    return none
  | (p, t) :: others => do
    let t ← t.poll
    match t.result? with
    | some r =>
      modify fun o => { o with attempts := done ++ others }
      return some (p, r)
    | none => pollAttempts (done ++ [(p, t)]) others

/-- What the retrieval gets, if it is there. -/
def nextInput : OrchestratedM (Option Orchestrator.Input) := do
  let o ← get
  let came ← match o.phase with
    | .finding =>
      match o.finding with
      | some pending =>
        match ← pending.poll with
        | some (.error e) => pure (some (.found (.error e)))
        | some (.ok ()) =>
          let root := (← getThe Job).order.root
          pure (some (.found (.ok ((← getThe World).finder.find root))))
        | none => pure none
      | none => pure none
    | .racing _ =>
      match ← pollAttempts [] o.attempts with
      | some (p, r) => pure (some (Orchestrator.Input.attempted p r))
      | none => pure none
    | .over _ => pure none
  match came with
  | some i => return some i
  | none => return (← watch (← getThe Job).context).map .ended

def collapse : OrchestratedM Unit := do
  for (_, t) in (← get).attempts do t.drop
  modify fun o => { o with attempts := [], phase := .over (.error crashError) }

/-- Lets a retrieval go on until it waits for something. -/
def pollOrchestrated : Nat → OrchestratedM Unit
  | 0 => pure ()
  | n + 1 => do
    if (← get).phase matches .over _ then return
    match ← nextInput with
    | none => pure ()
    | some i =>
      unless (← getThe World).crashed do input i
      if (← getThe World).crashed then collapse
      pollOrchestrated n

def startOrchestrated : JobM Orchestrated := do
  let step := (← getThe World).orchestrator.retrieve (← errorOf (← get).context)
  let ((), o) ← (goTo step).run { phase := step.1 }
  return o

/-! ## Calls -/

inductive Call where
  | retriever (t : Task)
  | orchestrated (o : Orchestrated)
  | standIn (s : StandIn) (began : Instant) (pending : Option Pending)
  | over (r : Except Error Stats)

/-- Whom a fetch is handed to. -/
inductive Entrance where
  | retriever (r : Retriever)
  | orchestrator
  | client
  deriving Repr

/-- The protocol code of a stand-in. -/
def standInProtocol : Protocol := .other 7

def startStandIn (s : StandIn) : JobM Call := do
  let c := (← get).context
  let e ← errorOf c
  let t ← now
  addLog (.retrieval (c.deadline.map fun d => Instant.millis (d - t)) e)
  modifyThe World fun w => { w with lastContext := c }
  tell .started
  match s.behavior with
  | .succeeds a => return .standIn s t (some (← a.start))
  | .waits => return .standIn s t none
  | .panics => return .over (.error crashError)

def startOrchestrator : JobM Call := do
  match (← getThe World).cast.standIn with
  | some s => startStandIn s
  | none =>
    modify fun j => { j with broadcasts := true }
    let o ← startOrchestrated
    return match o.phase with
      | .over r => .over r
      | _ => .orchestrated o

def Call.start (e : Entrance) : JobM Call := do
  noteChange
  match e with
  | .retriever r => return .retriever (.fresh r (← get).order.candidates)
  | .orchestrator => startOrchestrator
  | .client =>
    addLog (.fetch (!(← get).order.quiet))
    startOrchestrator

def Call.poll : Call → JobM Call
  | .retriever t => do
    let t ← t.poll
    return match t.result? with
      | some r => .over r
      | none => .retriever t
  | .orchestrated o => do
    unless ← mayGoOn do return .orchestrated o
    let ((), o) ← (pollOrchestrated patience).run o
    return match o.phase with
      | .over r => .over r
      | _ => .orchestrated o
  | .standIn s began (some pending) => do
    match ← pending.poll with
    | none => return .standIn s began (some pending)
    | some (.error e) => return .over (.error e)
    | some (.ok ()) =>
      return .over (.ok {
        root := (← get).order.root
        provider := none
        protocol := standInProtocol
        size := 1
        blocks := 1
        duration := (← now).since began })
  | .standIn s began none => do
    match ← watch (← get).context with
    | none => return .standIn s began none
    | some e => return .over (.error e)
  | .over r => return .over r

end Courier.Simulation
