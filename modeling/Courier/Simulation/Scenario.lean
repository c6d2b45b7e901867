import Courier.Simulation.Fetch
import Courier.Simulation.Setup
/-!
# What can be done with a simulated world

Besides fetching: watching it, and changing what is there between fetches.
-/

namespace Courier.Simulation

/-- Puts events in an order of their own where they came at the same time about the same
retrieval: by protocol. Protocols are started in no particular order. -/
def orderEvents (l : List (Nat × Event)) : List (Nat × Event) :=
  let together (a b : Nat × Event) : Bool :=
    a.1 == b.1 && a.2.id == b.2.id && a.2.what.protocol?.isSome && b.2.what.protocol?.isSome
  let code (e : Nat × Event) : Nat := ((e.2.what.protocol?.map (·.code.toNat)).getD 0)
  (l.splitBy together).flatMap fun run => run.mergeSort fun a b => code a ≤ code b

def subscribe (name : String) (leavesOn : Option String) : Sim Unit := do
  if (← get).cast.standIn.isSome then addLog .subscribed
  else
    let id := (← get).broadcast.subscribers.next
    discard <| actOn .subscribe
    modify fun w => { w with
      subscriptions := { name, id, leavesOn } :: w.subscriptions.filter (·.name ≠ name) }

def unsubscribe (name : String) : Sim Unit := do
  if (← get).cast.standIn.isSome then addLog .unsubscribed
  else
    if let some s := (← get).subscriptions.find? (·.name = name) then
      discard <| actOn (.unsubscribe s.id)

/-- What a subscriber was told since this was last asked. -/
def seen (name : String) : Sim (List Event) :=
  modifyGet fun w =>
    let told := ((w.subscriptions.find? (·.name = name)).map (·.told)).getD []
    let events := orderEvents (told.reverse.map fun (t, e) => (Instant.millis t, e))
    (events.map (·.2), { w with
      subscriptions := w.subscriptions.map fun s =>
        if s.name = name then { s with told := [] } else s })

/-- The most block requests in flight since this was last asked. -/
def takePeak : Sim Nat := modifyGet fun w => (w.peak, { w with peak := 0 })

/-- What the collaborators noted since this was last asked. -/
def takeLog : Sim (List LogEntry) := modifyGet fun w => (w.log, { w with log := [] })

def wait (millis : Nat) : Sim Unit := do passTime ((← now) + Instant.ofMillis millis)

def activeOf (p : ProviderId) : Sim Nat := do
  let w ← get
  if w.jammed then crash
  return w.lending.session.active p

def setScript (p : ProviderId) (s : PeerScript) : Sim Unit :=
  modify fun w => { w with scripts := (p, s) :: w.scripts.filter (·.1 ≠ p) }

/-- The history a session starts with. -/
def remember (p : ProviderId) (success : Option Duration) : Sim Unit :=
  onSession p fun l =>
    match success with
    | some d => l.recordSuccess p d
    | none => l.recordFailure p

end Courier.Simulation
