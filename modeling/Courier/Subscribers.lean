import Courier.Event
/-!
# Subscribers

Whoever subscribes is told of the events of every retrieval until it
unsubscribes. An event goes to those who are subscribed when it is sent out,
whatever they do while it is.
-/

namespace Courier

abbrev SubscriberId := UInt64

/-- Who is subscribed, in order of subscription. -/
structure Subscribers where
  ids : List SubscriberId := []
  /-- The identity that was given last. -/
  last : SubscriberId := 0
  deriving DecidableEq, Repr, Inhabited

namespace Subscribers

/-- Does nothing the second time. -/
def unsubscribe (s : Subscribers) (i : SubscriberId) : Subscribers :=
  { s with ids := s.ids.filter (· ≠ i) }

def next (s : Subscribers) : SubscriberId := s.last + 1

/-- Adds a subscriber under the next identity, in place of whoever had it. -/
def subscribe (s : Subscribers) : Subscribers :=
  { ids := (s.unsubscribe s.next).ids ++ [s.next], last := s.next }

/-- Whom an event goes to that is sent out now. -/
def audience (s : Subscribers) : List SubscriberId := s.ids

end Subscribers

end Courier
