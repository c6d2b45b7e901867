import Courier.Duration
import Courier.Error
/-!
# Contexts

A context has a deadline, if any, and the signals that cancel it: its own and
those of the contexts it was derived from. Deriving one never moves a deadline
back. A deadline too far away to be an instant counts as none.
-/

namespace Courier

/-- Nanoseconds since the start. -/
abbrev Instant := Nat

/-- What cancels a context once it is given. -/
abbrev Signal := Nat

namespace Instant

/-- The first time that is no instant: 2^63 seconds. -/
def limit : Nat := Nat.pow 2 63 * 1000000000

/-- The instant a duration later, if there is one. -/
def add? (t : Instant) (d : Duration) : Option Instant :=
  if t + d.total < limit then some (t + d.total) else none

/-- Alarms go off at whole milliseconds. -/
def alarm (t : Instant) : Instant := (t + 999999) / 1000000 * 1000000

def millis (t : Instant) : Nat := t / 1000000

def ofMillis (n : Nat) : Instant := n * 1000000

def since (t began : Instant) : Duration := Duration.ofNanos (t - began)

end Instant

/-- The time, and which signals were given. -/
structure Moment where
  now : Instant := 0
  given : List Signal := []
  /-- The next signal that nobody has. -/
  fresh : Signal := 0
  deriving DecidableEq, Repr, Inhabited

/-- How long something may go on. -/
structure Context where
  deadline : Option Instant := none
  signals : List Signal := []
  deriving DecidableEq, Repr, Inhabited

namespace Moment

def give (m : Moment) (s : Signal) : Moment := { m with given := s :: m.given }

/-- Time does not go back. -/
def advanceTo (m : Moment) (t : Instant) : Moment := { m with now := max m.now t }

end Moment

namespace Context

def background : Context := {}

def earlier : Option Instant → Option Instant → Option Instant
  | none, d => d
  | some a, none => some a
  | some a, some b => some (min a b)

/-- A child with a signal of its own and the given deadline, or the parent's if that is earlier. -/
def derive (c : Context) (m : Moment) (deadline : Option Instant) : Context × Signal × Moment :=
  (⟨earlier c.deadline deadline, c.signals ++ [m.fresh]⟩, m.fresh, { m with fresh := m.fresh + 1 })

def withCancel (c : Context) (m : Moment) : Context × Signal × Moment := c.derive m none

/-- A child that ends at an instant at the latest. -/
def withDeadline (c : Context) (m : Moment) (t : Instant) : Context × Signal × Moment :=
  c.derive m (some t)

/-- A child that ends after a duration at the latest. -/
def withTimeout (c : Context) (m : Moment) (d : Duration) : Context × Signal × Moment :=
  c.derive m (Instant.add? m.now d)

/-- Why a context is over. Cancellation comes before an expired deadline. -/
def error? (c : Context) (m : Moment) : Option Error :=
  if c.signals.any (· ∈ m.given) then some .cancelled
  else
    match c.deadline with
    | some d => if d ≤ m.now then some .deadlineExceeded else none
    | none => none

end Context

end Courier
