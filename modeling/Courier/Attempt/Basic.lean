import Courier.Block
import Courier.Context
import Courier.Event
/-!
# Attempts at one provider

A transport that fetches a whole graph from one provider goes through phases.
In each of them it waits for one thing, and what it gets takes it on. It ends
by failing or with the number of blocks it has written. When the first data is
there it says so, which it does at most once.
-/

namespace Courier

inductive Demand where
  | permit
  /-- All blocks of the graph at once. -/
  | transfer
  | response (endpoint : String)
  /-- More of the body of an answer. -/
  | body (endpoint : String)
  | writing (block : Block)
  deriving DecidableEq, Repr

inductive Input where
  | permit
  | transfer (blocks : List Block)
  | response
  | body (octets : Bytes)
  | bodyEnd
  | written
  /-- Nothing came within the time the provider has. -/
  | silence (limit : Duration)
  | failure (e : Error)
  deriving DecidableEq, Repr

inductive Outcome (α : Type) where
  | goes (phase : α)
  | fails (e : Error)
  | succeeds (began : Instant) (size blocks : Nat)
  deriving Repr

/-- A step of an attempt, and how long the first data took if it came just now. -/
structure Advance (α : Type) where
  first : Option Duration := none
  outcome : Outcome α
  deriving Repr

/-- A way to fetch a whole graph from one provider; `α` holds its phases. -/
structure Transport (α : Type) where
  protocol : Protocol
  /-- The first phase, which waits for a permit. -/
  start : Candidate → Except Error α
  demand : α → Demand
  step : Cid → Instant → α → Input → Advance α
  /-- The error that is told of an attempt that failed while its caller's context was live. -/
  report : Error → Error

end Courier
