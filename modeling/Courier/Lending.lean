import Courier.Session
/-!
# Lending permits

A session together with the retrievals that wait for a permit or hold one.
Each is known by its ticket. Whoever starts, resumes and ends them may do so in
any order.
-/

namespace Courier

/-- A retrieval that waits for a permit or holds one. -/
structure Loan where
  ticket : Ticket
  provider : ProviderId
  /-- None while it waits; then whether the permit holds a slot. -/
  permit : Option Bool
  deriving DecidableEq, Repr, Inhabited

structure Lending where
  session : Session := {}
  loans : List Loan := []
  deriving Repr, Inhabited

namespace Lending

def loan? (l : Lending) (t : Ticket) : Option Loan := l.loans.find? (·.ticket = t)

def isHeld (l : Lending) (t : Ticket) : Bool :=
  match l.loan? t with
  | some x => x.permit.isSome
  | none => false

def settle (l : Lending) (t : Ticket) : List Loan := l.loans.filter (·.ticket ≠ t)

def start (l : Lending) (p : ProviderId) (t : Ticket) : Lending × Session.Grant :=
  let (s, g) := l.session.acquire p t
  let permit := match g with
    | .unlimited => some false
    | .granted => some true
    | .waiting => none
  (⟨s, l.loans ++ [⟨t, p, permit⟩]⟩, g)

/-- Goes on with a permit whose slot was handed over. -/
def resume? (l : Lending) (t : Ticket) : Option Lending := do
  let x ← l.loan? t
  if x.permit.isSome then none
  else
    let s ← l.session.resume? x.provider t
    return ⟨s, l.loans.map fun y => if y.ticket = t then { y with permit := some true } else y⟩

def stop (l : Lending) (t : Ticket) : Lending × Option Ticket :=
  match l.loan? t with
  | none => (l, none)
  | some x =>
    match x.permit with
    | some false => (⟨l.session, l.settle t⟩, none)
    | some true =>
      let (s, next) := l.session.release x.provider
      (⟨s, l.settle t⟩, next)
    | none =>
      let (s, next) := l.session.abandon x.provider t
      (⟨s, l.settle t⟩, next)

def recordSuccess (l : Lending) (p : ProviderId) (d : Duration) : Lending :=
  { l with session := l.session.recordSuccess p d }

def recordFailure (l : Lending) (p : ProviderId) : Lending :=
  { l with session := l.session.recordFailure p }

end Lending

end Courier
