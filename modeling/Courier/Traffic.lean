import Courier.Attempt.Download
import Courier.Attempt.Fallback
import Courier.Attempt.Transfer
import Courier.Lending
/-!
# Traffic with providers

Any number of calls of the retrievers that turn to one provider after the
other, all on one session. What each of them meets, and when, is up to its
provider, its sink and its caller. Whatever it then does with the session it
does one by one, and others may come in between. A call that asks for a permit
does so under a ticket that nobody had before.
-/

namespace Courier

/-- Whether it is what was waited for. Permits come from the session, and failures always. -/
def Demand.takes : Demand → Input → Bool
  | _, .failure _ => true
  | .transfer, .transfer _ => true
  | .response _, .response | .response _, .silence _ => true
  | .body _, .body _ | .body _, .bodyEnd | .body _, .silence _ => true
  | .writing _, .written => true
  | _, _ => false

namespace Traffic

inductive Kind where
  | transfer
  | download
  deriving DecidableEq, Repr

namespace Kind

def Phase : Kind → Type
  | .transfer => Transfer.Phase
  | .download => Download.Phase

def transport : (k : Kind) → Transport k.Phase
  | .transfer => Transfer.transport
  | .download => Download.transport

/-- Whether a transfer is in progress, or a request or the body of its answer is open. -/
def isOpen : (k : Kind) → k.Phase → Bool
  | .transfer, .transferring _ => true
  | .transfer, _ => false
  | .download, .acquiring _ => false
  | .download, _ => true

end Kind

structure Call where
  key : Nat
  root : Cid
  kind : Kind
  /-- That of the permit it waits for or has. -/
  ticket : Option Ticket := none
  /-- What it does before it goes on. -/
  todo : List Fallback.Effect
  next : Fallback.Verdict kind.Phase

namespace Call

/-- Whether it has an exchange with a provider in progress. -/
def isOpenWith (c : Call) (p : ProviderId) : Bool :=
  match c.next with
  | .goes f => c.kind.isOpen f.phase && decide (f.candidate.provider = p)
  | .over _ => false

/-- The attempt of a call that waits, and its ticket. -/
def waiting? (c : Call) : Option (Fallback c.kind.Phase × Ticket) :=
  match c.todo, c.next, c.ticket with
  | [], .goes f, some s => some (f, s)
  | _, _, _ => none

end Call

end Traffic

structure Traffic where
  lending : Lending
  calls : List Traffic.Call := []
  /-- For which call each ticket was made, in order. -/
  issued : List Nat := []
  /-- The session broke down over an entry that cannot be made. -/
  jammed : Bool := false

namespace Traffic

def call? (t : Traffic) (key : Nat) : Option Call := t.calls.find? (·.key = key)

def others (t : Traffic) (key : Nat) : List Call := t.calls.filter (·.key ≠ key)

def put (t : Traffic) (c : Call) : Traffic := { t with calls := t.others c.key ++ [c] }

def remove (t : Traffic) (c : Call) : Traffic := { t with calls := t.others c.key }

/-- Gives back the permit of a call, or stops waiting for it. -/
def release (t : Traffic) (c : Call) : Traffic :=
  match c.ticket with
  | some s => { t with lending := (t.lending.stop s).1 }
  | none => t

/-! ## What a call does -/

/-- What becomes of a call that uses the entry of a provider. A session that cannot make it breaks
down, and whoever uses it then crashes. -/
def orCrash (t : Traffic) (c : Call) (p : ProviderId) (next : Traffic) : Traffic :=
  if t.jammed || !t.lending.session.admits p then { t.remove c with jammed := true } else next

def ask (t : Traffic) (c : Call) (p : ProviderId) : Traffic :=
  { t with
    lending := (t.lending.start p t.issued.length).1
    issued := t.issued ++ [c.key] }.put { c with ticket := some t.issued.length }

def go (t : Traffic) (c : Call) : Traffic :=
  match c.todo with
  | .tell _ :: todo => t.put { c with todo }
  | .leave :: todo => (t.release c).put { c with ticket := none, todo }
  | .recordSuccess p elapsed :: todo =>
    t.orCrash c p ({ t with lending := t.lending.recordSuccess p elapsed }.put { c with todo })
  | .recordFailure p :: todo =>
    t.orCrash c p ({ t with lending := t.lending.recordFailure p }.put { c with todo })
  | [] =>
    match c.next, c.ticket with
    | .over _, _ => t.remove c
    | .goes f, none => t.orCrash c f.candidate.provider (t.ask c f.candidate.provider)
    | .goes _, some _ => t

/-- Gives a call what it waits for. `ended` is the error of its caller's context, if that is
over. -/
def take (t : Traffic) (c : Call) (f : Fallback c.kind.Phase) (now : Instant)
    (ended : Option Error) (i : Input) : Traffic :=
  let (todo, next) := f.step c.kind.transport c.root now ended i
  t.put { c with todo, next }

/-- What comes of taking the permit of a ticket, if it is there. -/
def grant? (t : Traffic) (s : Ticket) : Option Lending :=
  if t.lending.isHeld s then some t.lending else t.lending.resume? s

/-- A call that waits for its permit takes it, if it is there. -/
def enter (t : Traffic) (c : Call) (now : Instant) (ended : Option Error) : Traffic :=
  match c.waiting? with
  | some (f, s) =>
    match c.kind.transport.demand f.phase, t.grant? s with
    | .permit, some lending => { t with lending }.take c f now ended .permit
    | _, _ => t
  | none => t

/-- A call meets with what it waits for, or with a failure. -/
def meet (t : Traffic) (c : Call) (i : Input) (now : Instant) (ended : Option Error) : Traffic :=
  match c.waiting? with
  | some (f, _) => if (c.kind.transport.demand f.phase).takes i then t.take c f now ended i else t
  | none => t

/-! ## Runs -/

inductive Act where
  | begin (kind : Kind) (root : Cid) (l : List Candidate) (now : Instant) (ended : Option Error)
  | go
  | enter (now : Instant) (ended : Option Error)
  | meet (i : Input) (now : Instant) (ended : Option Error)
  | drop

/-- Something happens to the call of a key. -/
def act (t : Traffic) (key : Nat) (a : Act) : Traffic :=
  match t.call? key, a with
  | none, .begin kind root l now ended =>
    let (todo, next) := Fallback.start kind.transport root now ended l
    t.put { key, root, kind, todo, next }
  | some c, .go => t.go c
  | some c, .enter now ended => t.enter c now ended
  | some c, .meet i now ended => t.meet c i now ended
  | some c, .drop => (t.release c).remove c
  | _, _ => t

def run (t : Traffic) (acts : List (Nat × Act)) : Traffic :=
  acts.foldl (fun t a => t.act a.1 a.2) t

/-- A live session that nobody uses. -/
def opened (policy : Policy) (capacity : Option Nat) : Traffic :=
  { lending := { session := { policy, capacity } } }

end Traffic

end Courier
