import Courier.Context
/-!
# Looking after something that is made

Something is being made while a context may come to its end. It is looked at
from time to time. What is done by then counts as done, even if the context has
ended meanwhile; if it is not done and the context is over, it is given up.
-/

namespace Courier

/-- A context, and the signals that are given by an instant. -/
structure Watch where
  context : Context
  given : Instant → List Signal

def Watch.error? (w : Watch) (t : Instant) : Option Error :=
  w.context.error? { now := t, given := w.given t }

structure Making (α : Type) where
  /-- When it is done, if ever. -/
  due : Option Instant
  result : Except Error α
  /-- When it is looked at, in order. -/
  looks : List Instant

namespace Making

def isDone (m : Making α) (t : Instant) : Bool := m.due.any (· ≤ t)

/-- What comes of it, and when that is noticed; none if nobody notices anything. -/
def settle (m : Making α) (w : Watch) : Option (Instant × Except Error α) :=
  m.looks.findSome? fun t =>
    if m.isDone t then some (t, m.result) else (w.error? t).map fun e => (t, .error e)

end Making

end Courier
