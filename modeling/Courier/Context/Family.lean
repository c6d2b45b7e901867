import Courier.Context
/-!
# Families of contexts

The contexts derived from the background one after the other, by whoever holds
the parent, and the handles that came with them. In between time passes, and
handles cancel or are dropped. A handle that is dropped cancels, and is gone.
-/

namespace Courier

inductive Way where
  | cancel
  | timeout (d : Duration)
  | deadline (t : Instant)
  deriving DecidableEq, Repr

namespace Way

/-- The deadline that is asked for, if it is an instant. -/
def requested (now : Instant) : Way → Option Instant
  | .cancel => none
  | .timeout d => Instant.add? now d
  | .deadline t => some t

end Way

namespace Context

def child (c : Context) (m : Moment) : Way → Context × Signal × Moment
  | .cancel => c.withCancel m
  | .timeout d => c.withTimeout m d
  | .deadline t => c.withDeadline m t

end Context

structure Member where
  /-- The member it was derived from; none for the background. -/
  parent : Option Nat
  way : Way
  born : Instant
  context : Context
  /-- What cancels it, as long as somebody holds it. -/
  handle : Option Signal
  deriving DecidableEq, Repr

/-- The deadline its derivation asked for. -/
def Member.requested (m : Member) : Option Instant := m.way.requested m.born

/-- Contexts in the order of their derivation, and the time. -/
structure Family where
  moment : Moment := {}
  members : List Member := []
  deriving DecidableEq, Repr

namespace Family

inductive Act where
  | derive (parent : Option Nat) (way : Way)
  | advance (t : Instant)
  | cancel (i : Nat)
  | drop (i : Nat)
  deriving DecidableEq, Repr

/-- The background, or the context of a member. -/
def context? (f : Family) : Option Nat → Option Context
  | none => some .background
  | some i => (f.members[i]?).map (·.context)

def derive (f : Family) (parent : Option Nat) (way : Way) : Family :=
  match f.context? parent with
  | some c =>
    let (context, handle, moment) := c.child f.moment way
    { moment, members := f.members ++ [⟨parent, way, f.moment.now, context, some handle⟩] }
  | none => f

/-- Cancels by the handle of a member, if it is held. -/
def cancel (f : Family) (i : Nat) : Family :=
  match (f.members[i]?).bind (·.handle) with
  | some h => { f with moment := f.moment.give h }
  | none => f

/-- Cancels by the handle of a member, which is held no more. -/
def drop (f : Family) (i : Nat) : Family :=
  { f.cancel i with members := f.members.modify i ({ · with handle := none }) }

def act (f : Family) : Act → Family
  | .derive parent way => f.derive parent way
  | .advance t => { f with moment := f.moment.advanceTo t }
  | .cancel i => f.cancel i
  | .drop i => f.drop i

/-- A family that begins with the background alone. -/
def run (acts : List Act) : Family := acts.foldl act {}

end Family

end Courier
