import Courier.Context.Work
/-!
# Contexts by name

A family of contexts on one clock, and the handles that cancel them. A handle
that is dropped cancels as well.
-/

namespace Courier.Simulation

structure Contexts where
  moment : Moment := {}
  known : List (String × Context) := []
  handles : List (String × Signal) := []
  deriving Repr

namespace Contexts

/-- A context nobody knows is the background. -/
def find (s : Contexts) (name : String) : Context := (s.known.lookup name).getD .background

/-- Keeps a context under a name. A handle kept there stays. -/
def store (s : Contexts) (name : String) (c : Context) : Contexts :=
  { s with known := (name, c) :: s.known.filter (·.1 != name) }

/-- Keeps a child and its handle under a name; the handle kept there before is dropped. -/
def adopt (s : Contexts) (name : String) (child : Context × Signal × Moment) : Contexts :=
  let (c, h, moment) := child
  let moment := match s.handles.lookup name with
    | some g => moment.give g
    | none => moment
  store { s with
    moment
    handles := (name, h) :: s.handles.filter (·.1 != name) } name c

/-- A deadline that is no instant is none. -/
def withDeadline (s : Contexts) (parent name : String) (since : Duration) : Contexts :=
  s.adopt name <|
    match Instant.add? 0 since with
    | some t => (s.find parent).withDeadline s.moment t
    | none => (s.find parent).withCancel s.moment

/-- Cancels by a handle that is there. -/
def cancel (s : Contexts) (name : String) : Contexts :=
  match s.handles.lookup name with
  | some h => { s with moment := s.moment.give h }
  | none => s

/-- Drops a handle; whether there was one. -/
def drop (s : Contexts) (name : String) : Contexts × Bool :=
  match s.handles.lookup name with
  | some h =>
    ({ s with moment := s.moment.give h, handles := s.handles.filter (·.1 != name) }, true)
  | none => (s, false)

def advance (s : Contexts) (millis : Nat) : Contexts :=
  { s with moment := s.moment.advanceTo (s.moment.now + Instant.ofMillis millis) }

/-- Waits at most some time for a context to end. -/
def await (s : Contexts) (name : String) (millis : Nat) : Contexts × Option Error :=
  let limit := s.moment.now + Instant.ofMillis millis
  let (t, e) := (s.find name).await s.moment [] limit
  ({ s with moment := s.moment.advanceTo t }, e)

/-- Runs work that sleeps and then has a result, while a handle may be cancelled some time from
now; when it ended and how. -/
def run (s : Contexts) (name : String) (delay : Duration) (result : Except Error α)
    (cancels : Option (String × Nat)) : Contexts × Instant × Except Error α :=
  let now := s.moment.now
  let future : List Announced := match cancels with
    | some (n, millis) =>
      ((s.handles.lookup n).map fun h => ⟨now + Instant.ofMillis millis, h⟩).toList
    | none => []
  let (t, r) := (s.find name).run s.moment future (Instant.alarm (now + delay.total)) result
  let moment := future.foldl (fun m a => (m.advanceTo a.instant).give a.signal)
    (s.moment.advanceTo t)
  ({ s with moment }, t, r)

end Contexts

end Courier.Simulation
