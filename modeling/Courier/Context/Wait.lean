import Courier.Context.Family
/-!
# Waiting for the end of a context

Whoever waits for a context asks it at the first look whether it is over. From
then on there is a waiter for each of its signals, done once the signal is
given or nobody holds its handle, and an alarm for the deadline. If both are
ready at a look, either may be seen first. Work under a context is looked at
before the wait is; a context that is over already has its work refused.
-/

namespace Courier

/-- What happens until the next look, and what there is to see then. -/
structure Beat (α : Type) where
  acts : List Family.Act := []
  /-- What the work comes to, if it is done at this look. -/
  came : Option (Except Error α) := none
  alarmFirst : Bool := false

/-- What became of work under a context, and at which look. -/
inductive Fate (α : Type) where
  /-- It was never looked at. -/
  | refused (e : Error)
  | finished (look : Nat) (result : Except Error α)
  /-- It was dropped while it was not done. -/
  | dropped (look : Nat) (e : Error)

def Fate.later {α : Type} : Fate α → Fate α
  | .refused e => .refused e
  | .finished k r => .finished (k + 1) r
  | .dropped k e => .dropped (k + 1) e

namespace Family

variable {α : Type}

def isHeld (f : Family) (s : Signal) : Bool := f.members.any (·.handle = some s)

/-- Whether a waiter for the signal is done. -/
def isSettled (f : Family) (s : Signal) : Bool := s ∈ f.moment.given || !f.isHeld s

def pass (f : Family) (b : Beat α) : Family := b.acts.foldl act f

/-- The family at the last of some looks. -/
def after (f : Family) (beats : List (Beat α)) : Family := beats.foldl pass f

end Family

namespace Context

variable {α : Type}

def cancelled? (c : Context) (f : Family) : Option Error :=
  if c.signals.any f.isSettled then some .cancelled else none

def expired? (c : Context) (f : Family) : Option Error :=
  if c.deadline.any (Instant.alarm · ≤ f.moment.now) then some .deadlineExceeded else none

def race (c : Context) (f : Family) (alarmFirst : Bool) : Option Error :=
  if alarmFirst then (c.expired? f).or (c.cancelled? f) else (c.cancelled? f).or (c.expired? f)

def look (c : Context) (first : Bool) (f : Family) (alarmFirst : Bool) : Option Error :=
  if first then (c.error? f.moment).or (c.race f alarmFirst) else c.race f alarmFirst

def doneFrom (c : Context) : Bool → Family → List (Beat α) → Option (Nat × Error)
  | _, _, [] => none
  | first, f, b :: bs =>
    match c.look first (f.pass b) b.alarmFirst with
    | some e => some (0, e)
    | none => (c.doneFrom false (f.pass b) bs).map fun (k, e) => (k + 1, e)

/-- At which look the wait for a context ends, and with what. -/
def done (c : Context) (f : Family) (beats : List (Beat α)) : Option (Nat × Error) :=
  c.doneFrom true f beats

def driveFrom (c : Context) : Bool → Family → List (Beat α) → Option (Fate α)
  | _, _, [] => none
  | first, f, b :: bs =>
    match b.came with
    | some r => some (.finished 0 r)
    | none =>
      match c.look first (f.pass b) b.alarmFirst with
      | some e => some (.dropped 0 e)
      | none => (c.driveFrom false (f.pass b) bs).map Fate.later

/-- What becomes of work under a context; none while neither is over. -/
def drive (c : Context) (f : Family) (beats : List (Beat α)) : Option (Fate α) :=
  match c.error? f.moment with
  | some e => some (.refused e)
  | none => c.driveFrom true f beats

end Context

end Courier
