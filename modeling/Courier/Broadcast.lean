import Courier.Subscribers
/-!
# Sending out events

An event goes to the callback of its own fetch first. When that returns, the
event goes to those who are subscribed then, one after the other. Meanwhile
others subscribe and unsubscribe, in their callbacks too, and other fetches
send out events of their own.
-/

namespace Courier

/-- An event that is sent out by a fetch. -/
structure Emission (φ : Type) where
  fetch : φ
  event : Event
  /-- To whom it has yet to go, once its own callback has returned. -/
  left : Option (List SubscriberId) := none

/-- Subscribers, and the events that were sent out, in order. -/
structure Broadcast (φ : Type) where
  subscribers : Subscribers := {}
  emissions : List (Emission φ) := []

namespace Broadcast

/-- What happens. Emissions go by their place in the order. -/
inductive Act (φ : Type) where
  | subscribe
  | unsubscribe (i : SubscriberId)
  /-- A fetch sends out an event and calls back. -/
  | emit (f : φ) (e : Event)
  | returns (n : Nat)
  /-- One of those whom an emission has yet to go to is called. -/
  | call (n : Nat) (i : SubscriberId)
  deriving DecidableEq

inductive Listener (φ : Type) where
  | callback (f : φ)
  | subscriber (i : SubscriberId)
  deriving DecidableEq

structure Delivery (φ : Type) where
  emission : Nat
  listener : Listener φ
  event : Event
  deriving DecidableEq

/-- To whom an emission has yet to go, as far as is known. -/
def waiting (b : Broadcast φ) (n : Nat) : List SubscriberId :=
  (b.emissions[n]?.bind (·.left)).getD []

def gather (b : Broadcast φ) (n : Nat) : Broadcast φ :=
  match b.emissions[n]? with
  | some ⟨f, e, none⟩ =>
    { b with emissions := b.emissions.set n ⟨f, e, some b.subscribers.audience⟩ }
  | _ => b

/-- An emission goes to one it has yet to go to. -/
def call (b : Broadcast φ) (n : Nat) (i : SubscriberId) : Broadcast φ × Option (Delivery φ) :=
  match b.emissions[n]? with
  | some ⟨f, e, some l⟩ =>
    if i ∈ l then
      ({ b with emissions := b.emissions.set n ⟨f, e, some (l.filter (· ≠ i))⟩ },
        some ⟨n, .subscriber i, e⟩)
    else (b, none)
  | _ => (b, none)

def act (b : Broadcast φ) : Act φ → Broadcast φ × Option (Delivery φ)
  | .subscribe => ({ b with subscribers := b.subscribers.subscribe }, none)
  | .unsubscribe i => ({ b with subscribers := b.subscribers.unsubscribe i }, none)
  | .emit f e =>
    ({ b with emissions := b.emissions ++ [⟨f, e, none⟩] }, some ⟨b.emissions.length, .callback f, e⟩)
  | .returns n => (b.gather n, none)
  | .call n i => b.call n i

/-- Acts one after the other, and what was told by them. -/
def run (acts : List (Act φ)) : Broadcast φ × List (Delivery φ) :=
  acts.foldl (fun (b, told) a => ((b.act a).1, told ++ (b.act a).2.toList)) ({}, [])

end Broadcast

end Courier
