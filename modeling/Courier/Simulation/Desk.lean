import Courier.Lending
/-!
# A session by itself

Retrievals ask for permits under names of their own and are told when they get
one. Those that waited go on as soon as a slot is handed to them.
-/

namespace Courier.Simulation

/-- A session and who has asked for its permits. -/
structure Desk where
  lending : Lending := {}
  names : List (String × Ticket) := []
  next : Ticket := 0
  /-- Slots were to be made in a number there cannot be. -/
  broken : Bool := false
  deriving Repr

namespace Desk

/-- A permit that was granted under a name, and whether it holds a slot. -/
abbrev Granted := String × Bool

def ticket (d : Desk) (name : String) : Ticket := (d.names.lookup name).getD d.next

def nameOf (d : Desk) (t : Ticket) : String := ((d.names.find? (·.2 = t)).map (·.1)).getD ""

/-- Lets the ticket that was handed a slot go on. -/
def settle (d : Desk) : Option Ticket → Desk × List Granted
  | none => (d, [])
  | some t =>
    match d.lending.resume? t with
    | some lending => ({ d with lending }, [(d.nameOf t, true)])
    | none => (d, [])

def acquire (d : Desk) (p : ProviderId) (name : String) : Desk × List Granted :=
  let s := d.lending.session
  if s.live && !s.admits p then ({ d with broken := true }, [])
  else
    let (lending, g) := d.lending.start p d.next
    let d := { d with lending, names := (name, d.next) :: d.names, next := d.next + 1 }
    match g with
    | .unlimited => (d, [(name, false)])
    | .granted => (d, [(name, true)])
    | .waiting => (d, [])

/-- Drops a permit, or stops waiting for one. -/
def stop (d : Desk) (name : String) : Desk × List Granted :=
  let (lending, next) := d.lending.stop (d.ticket name)
  settle { d with lending } next

/-- Drops a permit that was granted; whether there was one. -/
def release (d : Desk) (name : String) : Desk × Bool × List Granted :=
  if d.lending.isHeld (d.ticket name) then
    let (d, granted) := d.stop name
    (d, true, granted)
  else (d, false, [])

/-- Stops waiting. A permit that was granted stays. -/
def abort (d : Desk) (name : String) : Desk × List Granted :=
  if d.lending.isHeld (d.ticket name) then (d, []) else d.stop name

/-- Puts a success, or else a failure, on the record of a provider. -/
def record (d : Desk) (p : ProviderId) (success : Option Duration) : Desk :=
  if d.lending.session.admits p then
    { d with
      lending := match success with
        | some elapsed => d.lending.recordSuccess p elapsed
        | none => d.lending.recordFailure p }
  else { d with broken := true }

end Desk

end Courier.Simulation
