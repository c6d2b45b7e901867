import Courier.Candidate
import Courier.Policy
import Courier.Slots
/-!
# Sessions

A session applies the provider policy and, when it is live, keeps an entry per
provider: its slots, how many retrievals hold one, how many hold or wait for
one, and its record of successes and failures. Once the table is full, an
operation on a provider without an entry first drops the entries nobody holds
or waits on.
-/

namespace Courier

structure Entry where
  /-- None if the provider has no limit. -/
  slots : Option Slots
  active : Nat := 0
  /-- Retrievals that hold a slot or wait for one. -/
  holders : Nat := 0
  successes : Nat := 0
  failures : Nat := 0
  lastSuccess : Option Duration := none
  deriving DecidableEq, Repr, Inhabited

namespace Entry

def fresh (limit : UInt64) : Entry :=
  { slots := if limit = 0 then none else some { free := limit.toNat } }

def isBusy (e : Entry) : Bool := decide (0 < e.holders)

/-- Failures not made good by successes. -/
def score (e : Entry) : Int := (e.failures : Int) - e.successes

end Entry

structure Session where
  policy : Policy := {}
  live : Bool := true
  /-- The table size at which idle providers are forgotten, if they ever are. -/
  capacity : Option Nat := some 4096
  table : List (ProviderId × Entry) := []
  deriving Repr, Inhabited

namespace Session

def entry? (s : Session) (p : ProviderId) : Option Entry := s.table.lookup p

def replace (p : ProviderId) (e : Entry) : List (ProviderId × Entry) → List (ProviderId × Entry)
  | [] => []
  | x :: r => if x.1 = p then (p, e) :: r else x :: replace p e r

def setEntry (s : Session) (p : ProviderId) (e : Entry) : Session :=
  { s with table := replace p e s.table }

/-- Whether the limit of a provider is one that slots can be made for. -/
def admits (s : Session) (p : ProviderId) : Bool :=
  (s.entry? p).isSome || decide ((s.policy.configOf p).limit.toNat ≤ Slots.maximum)

def isFull (s : Session) : Bool :=
  match s.capacity with
  | some n => decide (n ≤ s.table.length)
  | none => false

/-- Whether a permit for the provider holds a slot. -/
def isLimited (s : Session) (p : ProviderId) : Bool := ((s.entry? p).bind (·.slots)).isSome

/-- The session with an entry for the provider, which is new if there was none. -/
def track (s : Session) (p : ProviderId) : Session × Entry :=
  match s.entry? p with
  | some e => (s, e)
  | none =>
    let kept := if s.isFull then s.table.filter (·.2.isBusy) else s.table
    let e := Entry.fresh (s.policy.configOf p).limit
    ({ s with table := (p, e) :: kept }, e)

def modify (s : Session) (p : ProviderId) (f : Entry → Entry) : Session :=
  let (s, e) := s.track p
  s.setEntry p (f e)

/-! ## Slots of a provider -/

inductive Grant where
  /-- A permit that holds nothing, of a session that is not live. -/
  | unlimited
  | granted
  | waiting
  deriving DecidableEq, Repr

/-- Asks for a slot of the provider. One who has to wait holds the entry too, so that it stays. -/
def acquire (s : Session) (p : ProviderId) (t : Ticket) : Session × Grant :=
  if s.live then
    let (s, e) := s.track p
    let e := { e with holders := e.holders + 1 }
    match e.slots with
    | none => (s.setEntry p { e with active := e.active + 1 }, .granted)
    | some slots =>
      match slots.acquire t with
      | (slots, true) =>
        (s.setEntry p { e with slots := some slots, active := e.active + 1 }, .granted)
      | (slots, false) => (s.setEntry p { e with slots := some slots }, .waiting)
  else (s, .unlimited)

/-- Takes the slot that was handed to a waiting ticket, if one was. -/
def resume? (s : Session) (p : ProviderId) (t : Ticket) : Option Session := do
  let e ← s.entry? p
  let slots ← e.slots
  let slots ← slots.resume? t
  return s.setEntry p { e with slots := some slots, active := e.active + 1 }

def release (s : Session) (p : ProviderId) : Session × Option Ticket :=
  match s.entry? p with
  | none => (s, none)
  | some e =>
    let e := { e with active := e.active - 1, holders := e.holders - 1 }
    match e.slots with
    | none => (s.setEntry p e, none)
    | some slots =>
      let (slots, next) := slots.release
      (s.setEntry p { e with slots := some slots }, next)

/-- Stops waiting; tells to whom a slot that was already handed over went on. -/
def abandon (s : Session) (p : ProviderId) (t : Ticket) : Session × Option Ticket :=
  match s.entry? p with
  | none => (s, none)
  | some e =>
    let e := { e with holders := e.holders - 1 }
    match e.slots with
    | none => (s.setEntry p e, none)
    | some slots =>
      let (slots, next) := slots.abandon t
      (s.setEntry p { e with slots := some slots }, next)

def active (s : Session) (p : ProviderId) : Nat := ((s.entry? p).map (·.active)).getD 0

/-! ## Records -/

def recordSuccess (s : Session) (p : ProviderId) (elapsed : Duration) : Session :=
  s.modify p fun e => { e with successes := e.successes + 1, lastSuccess := some elapsed }

def recordFailure (s : Session) (p : ProviderId) : Session :=
  s.modify p fun e => { e with failures := e.failures + 1 }

/-! ## Candidates -/

def accepts (s : Session) (c : Candidate) : Bool := s.policy.accepts c.provider

/-- A provider that never succeeded comes before one that did, a quick success before a slow one. -/
def durationLe : Option Duration → Option Duration → Bool
  | none, _ => true
  | some _, none => false
  | some a, some b => decide (a.total ≤ b.total)

/-- The rank of a provider: its score, then its last success. -/
def rank (s : Session) (p : ProviderId) : Int × Option Duration :=
  match s.entry? p with
  | some e => (e.score, e.lastSuccess)
  | none => (0, none)

def rankLe (a b : Int × Option Duration) : Bool :=
  decide (a.1 < b.1) || (decide (a.1 = b.1) && durationLe a.2 b.2)

/-- Candidates by the rank of their providers, those of equal rank in their given order. -/
def sortCandidates (s : Session) (l : List Candidate) : List Candidate :=
  l.mergeSort fun c d => rankLe (s.rank c.provider) (s.rank d.provider)

end Session

end Courier
