import Courier.Ceiling
import Courier.Context.Family
import Courier.Event
/-!
# Fetches side by side

A client has one limit for all its fetches. A fetch that is called does nothing
until it is looked after. From then on it runs under a ceiling of its own, in a
context that others may derive from but only the fetch can cancel. It leaves
with the result of what runs under the ceiling, or because that crashes, or
because nobody wants it any more, and its ceiling is lifted.
-/

namespace Courier

namespace Service

inductive Exit where
  | returned (r : Except Error Stats)
  | crashed
  | dropped
  deriving Repr

structure Fetch where
  /-- The member whose context it was called with; none for the background. -/
  caller : Option Nat
  /-- Once it is looked after, since when, and under which ceiling. -/
  ceiling : Option (Instant × Ceiling) := none
  exit : Option Exit := none
  deriving Repr

namespace Fetch

/-- What lifts its ceiling; this is its own member too. -/
def handle (g : Fetch) : Option Signal := g.ceiling.bind (·.2.signal)

/-- The member whose context it runs in. -/
def member (g : Fetch) : Option Nat := g.handle.or g.caller

/-- Before anybody has looked after it, it can only be dropped. -/
def mayLeave (g : Fetch) (e : Exit) : Bool :=
  g.exit.isNone && (g.ceiling.isSome || e matches .dropped)

end Fetch

inductive Act where
  /-- Somebody derives a context or uses a handle, or time passes. -/
  | outside (a : Family.Act)
  | call (caller : Option Nat)
  /-- A fetch is looked after for the first time. -/
  | enter (i : Nat)
  | leave (i : Nat) (e : Exit)
  deriving Repr

end Service

structure Service where
  limit : Duration
  /-- All contexts, those of the callers and those of the fetches. -/
  family : Family := {}
  fetches : List Service.Fetch := []
  deriving Repr

namespace Service

/-- Whether a handle is that of a fetch, which keeps it to itself. -/
def owns (s : Service) (j : Nat) : Bool := s.fetches.any fun g => g.handle = some j

def isOutside (s : Service) : Family.Act → Bool
  | .cancel j | .drop j => !s.owns j
  | _ => true

def enter (s : Service) (i : Nat) : Service :=
  match s.fetches[i]? with
  | some g =>
    match s.family.context? g.caller, g.ceiling, g.exit with
    | some c, none, none =>
      let now := s.family.moment.now
      let ceiling := (Ceiling.impose c s.family.moment s.limit).1
      { s with
        family := if s.limit.isZero then s.family else s.family.derive g.caller (.timeout s.limit)
        fetches := s.fetches.set i { g with ceiling := some (now, ceiling) } }
    | _, _, _ => s
  | none => s

def leave (s : Service) (i : Nat) (e : Exit) : Service :=
  match s.fetches[i]? with
  | some g =>
    if g.mayLeave e then
      { s with
        family := g.handle.elim s.family s.family.drop
        fetches := s.fetches.set i { g with exit := some e } }
    else s
  | none => s

def act (s : Service) : Act → Service
  | .outside a => if s.isOutside a then { s with family := s.family.act a } else s
  | .call caller =>
    if (s.family.context? caller).isSome then { s with fetches := s.fetches ++ [{ caller }] } else s
  | .enter i => s.enter i
  | .leave i e => s.leave i e

/-- A client that begins with the background as the only context. -/
def run (limit : Duration) (acts : List Act) : Service := acts.foldl act { limit }

end Service

end Courier
