import Courier.Context
/-!
# Work under a context

When a context ends, given which signals will be given and when, and what
becomes of work that runs under it. Work that is ready at the instant its
context ends wins. A deadline that passes at the instant of a signal is seen
first, since whoever gives the signal comes after those who wait.
-/

namespace Courier

structure Announced where
  instant : Instant
  signal : Signal
  deriving DecidableEq, Repr

namespace Context

/-- The first instant at which one of the context's own signals is given. -/
def firstSignal (c : Context) (future : List Announced) : Option Instant :=
  future.foldl (fun d a => if a.signal ∈ c.signals then earlier d (some a.instant) else d) none

/-- When the context is over, and why; now, if it already is. -/
def ending (c : Context) (m : Moment) (future : List Announced) : Option (Instant × Error) :=
  match c.error? m with
  | some e => some (m.now, e)
  | none =>
    match c.deadline.map Instant.alarm, c.firstSignal future with
    | none, none => none
    | some d, none => some (d, .deadlineExceeded)
    | none, some s => some (s, .cancelled)
    | some d, some s => if d ≤ s then some (d, .deadlineExceeded) else some (s, .cancelled)

/-- What becomes of work that would end at `ready` with `result`, and when. -/
def run (c : Context) (m : Moment) (future : List Announced) (ready : Instant)
    (result : Except Error α) : Instant × Except Error α :=
  match c.error? m with
  | some e => (m.now, .error e)
  | none =>
    match c.ending m future with
    | none => (ready, result)
    | some (t, e) => if ready ≤ t then (ready, result) else (t, .error e)

/-- Waits until `limit` at the latest; none if the context is not over by then. -/
def await (c : Context) (m : Moment) (future : List Announced) (limit : Instant) :
    Instant × Option Error :=
  match c.ending m future with
  | none => (limit, none)
  | some (t, e) => if t ≤ limit then (t, some e) else (limit, none)

end Context

end Courier
