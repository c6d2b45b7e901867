import Courier.Block
import Courier.Candidate
import Courier.Config.Basic
import Courier.Error
import Courier.Event
import Courier.Slots
/-!
# Walking a graph block by block

An exchange walks graphs from their roots. It asks providers for one block at a
time and learns from every block that arrives which others it links to. Each
block is asked for once, from one provider after another until one delivers it.

A request needs a slot of its walk and then one that all walks share. It takes
them in two steps and holds both until the block is there or nobody is left to
ask. A walk takes the blocks that arrive one by one: while one of them is being
written it neither begins requests nor takes answers. It is over when nothing is
left to fetch, or with the first block that cannot be had.
-/

namespace Courier

namespace Exchange

inductive Phase where
  | fresh
  | awaitingOwn
  | awaitingShared
  | asking (provider : ProviderId) (others : List ProviderId)
  /-- Both slots are held, but nobody is left to ask. -/
  | spent
  deriving DecidableEq, Repr, Inhabited

structure Fetch where
  ticket : Ticket
  cid : Cid
  phase : Phase := .fresh
  deriving DecidableEq, Repr, Inhabited

structure Tally where
  /-- Who delivered the root. -/
  provider : Option ProviderId := none
  size : Nat := 0
  blocks : Nat := 0
  deriving DecidableEq, Repr, Inhabited

/-- What is told of a walk that is over. -/
def Tally.stats (t : Tally) (root : Cid) (duration : Duration) : Stats where
  root
  provider := t.provider
  protocol := .bitswap
  size := t.size
  blocks := t.blocks
  duration

structure Walk where
  root : Cid
  providers : List ProviderId
  own : Slots
  /-- The identifiers that were ever asked for. -/
  seen : List Cid
  fetches : List Fetch := []
  /-- While a block is written, the links it is the first to have. -/
  writing : Option (List Cid) := none
  tally : Tally := {}
  deriving Repr, Inhabited

/-- Walks are known by numbers of their own. -/
abbrev Key := Nat

/-- What others have to do, or to know, after a step. -/
inductive Effect where
  /-- The fetch may be able to take a step. -/
  | wake (t : Ticket)
  | ask (t : Ticket) (provider : ProviderId) (cid : Cid)
  | firstBlock (k : Key) (provider : ProviderId)
  | write (k : Key) (block : Block)
  | finish (k : Key) (result : Except Error Tally)
  deriving Repr

end Exchange

/-- All walks, and the slots they share. -/
structure Exchange where
  /-- How long one provider may take over a block. -/
  limit : Duration
  /-- Requests in flight within one walk. -/
  width : Nat
  shared : Slots
  walks : List (Exchange.Key × Exchange.Walk) := []
  /-- The next number that is neither a ticket nor a walk. -/
  fresh : Nat := 0
  deriving Repr, Inhabited

namespace Exchange

/-- An exchange as configured, unless it is to have more slots than there can be. -/
def ofConfig? (c : Config) : Option Exchange := do
  let shared ← Slots.ofSize? (max 1 c.concurrency.toNat)
  return {
    limit := c.providerTimeout
    width := max 1 c.concurrencyPerRetrieval.toNat
    shared }

/-- Whether a walk can have as many slots as it is to have. -/
def admits (x : Exchange) : Bool := decide (x.width ≤ Slots.maximum)

/-! ## One fetch -/

/-- What a step of a fetch comes to. -/
inductive Turn where
  | waits
  | asks (provider : ProviderId)
  | fails (e : Error)
  | delivers (b : Block) (provider : ProviderId)
  deriving Repr

/-- Turns to the first of some providers; without any, the last error stands. -/
def Fetch.turnTo (f : Fetch) (last : Error) : List ProviderId → Fetch × Turn
  | [] => ({ f with phase := .spent }, .fails last)
  | p :: others => ({ f with phase := .asking p others }, .asks p)

/-- Lines up for a slot of the walk; takes one that was handed over, and lines up for a shared
one; takes that, and turns to the first provider. -/
def Fetch.advance (f : Fetch) (providers : List ProviderId) (own shared : Slots) :
    Fetch × Slots × Slots × Turn :=
  match f.phase with
  | .fresh => ({ f with phase := .awaitingOwn }, own.request f.ticket, shared, .waits)
  | .awaitingOwn =>
    match own.resume? f.ticket with
    | none => (f, own, shared, .waits)
    | some own => ({ f with phase := .awaitingShared }, own, shared.request f.ticket, .waits)
  | .awaitingShared =>
    match shared.resume? f.ticket with
    | none => (f, own, shared, .waits)
    | some shared =>
      let (f, turn) := f.turnTo (.failed (.noBlockCandidate f.cid)) providers
      (f, own, shared, turn)
  | .asking _ _ | .spent => (f, own, shared, .waits)

/-- The error of a provider that failed, which is never that of a context. -/
def blame (limit : Duration) (e : Error) : Error :=
  if e.isContext then .failed (.blockTimedOut limit) else e

/-- What a fetch takes with its next step. -/
inductive Need where
  | nothing
  /-- A slot that was handed to it. -/
  | slot
  /-- What only others can give it, a slot or an answer. -/
  | others
  deriving DecidableEq, Repr

def Fetch.need (f : Fetch) (own shared : Slots) : Need :=
  match f.phase with
  | .fresh => .nothing
  | .awaitingOwn => if f.ticket ∈ own.handed then .slot else .others
  | .awaitingShared => if f.ticket ∈ shared.handed then .slot else .others
  | .asking _ _ | .spent => .others

/-- Takes the answer of the provider that was asked. `ended` is the error of the caller's context,
if that is over. -/
def Fetch.answer (f : Fetch) (limit : Duration) (ended : Option Error)
    (answer : Except Error Block) : Fetch × Turn :=
  match f.phase with
  | .asking p others =>
    match answer with
    | .ok b =>
      if b.cid = f.cid then (f, .delivers b p)
      else f.turnTo (.failed (.wrongBlock f.cid b.cid)) others
    | .error e =>
      match ended with
      | some e => (f, .fails e)
      | none => f.turnTo (blame limit e) others
  | _ => (f, .waits)

/-- Lets go of what a fetch has of the shared slots; tells to whom a slot was handed. -/
def Fetch.leave (f : Fetch) (shared : Slots) : Slots × Option Ticket :=
  match f.phase with
  | .fresh | .awaitingOwn => (shared, none)
  | .awaitingShared => shared.abandon f.ticket
  | .asking _ _ | .spent => shared.release

/-! ## One walk -/

namespace Walk

def fetch? (w : Walk) (t : Ticket) : Option Fetch := w.fetches.find? (·.ticket = t)

def setFetch (w : Walk) (f : Fetch) : Walk :=
  { w with fetches := w.fetches.map fun g => if g.ticket = f.ticket then f else g }

def dropFetch (w : Walk) (t : Ticket) : Walk :=
  { w with fetches := w.fetches.filter (·.ticket ≠ t) }

/-- Begins to fetch some blocks, under tickets from `t` on. -/
def spawn (w : Walk) (t : Ticket) (cids : List Cid) : Walk :=
  { w with fetches := w.fetches ++ cids.mapIdx fun i c => { ticket := t + i, cid := c } }

/-- The links nobody saw before, each once. -/
def unseen : List Cid → List Cid → List Cid
  | _, [] => []
  | seen, c :: cs => if c ∈ seen then unseen seen cs else c :: unseen (c :: seen) cs

def take (w : Walk) (b : Block) (p : ProviderId) : Walk :=
  let links := unseen w.seen b.links
  { w with
    seen := links.reverse ++ w.seen
    writing := some links
    tally := {
      provider := w.tally.provider.or (some p)
      size := w.tally.size + b.data.length
      blocks := w.tally.blocks + 1 } }

/-- Lets go of all shared slots, those of the youngest fetch first. -/
def leave (w : Walk) (shared : Slots) : Slots × List Ticket :=
  w.fetches.foldr (fun f (s, woken) =>
    let (s, next) := f.leave s
    (s, woken ++ next.toList)) (shared, [])

end Walk

/-! ## All walks -/

def walk? (x : Exchange) (k : Key) : Option Walk := x.walks.lookup k

def setWalk (x : Exchange) (k : Key) (w : Walk) : Exchange :=
  { x with walks := x.walks.map fun e => if e.1 = k then (k, w) else e }

def owner? (x : Exchange) (t : Ticket) : Option (Key × Walk) :=
  x.walks.find? fun e => (e.2.fetch? t).isSome

/-- Begins to walk from a root; its number comes first. -/
def start (x : Exchange) (root : Cid) (providers : List ProviderId) :
    Key × Exchange × List Effect :=
  let w : Walk := { root, providers, own := { free := x.width }, seen := [root] }
  let t := x.fresh + 1
  (x.fresh,
    { x with walks := x.walks ++ [(x.fresh, w.spawn t [root])], fresh := t + 1 }, [.wake t])

def drop (x : Exchange) (k : Key) : Exchange × List Effect :=
  match x.walk? k with
  | none => (x, [])
  | some w =>
    let (shared, woken) := w.leave x.shared
    ({ x with shared, walks := x.walks.filter (·.1 ≠ k) }, woken.map .wake)

def finish (x : Exchange) (k : Key) (r : Except Error Tally) : Exchange × List Effect :=
  let (x, effects) := x.drop k
  (x, effects ++ [.finish k r])

/-- Goes on after a step of a fetch. -/
def settle (x : Exchange) (k : Key) (w : Walk) (f : Fetch) : Turn → Exchange × List Effect
  | .waits => (x.setWalk k (w.setFetch f), [])
  | .asks p => (x.setWalk k (w.setFetch f), [.ask f.ticket p f.cid])
  | .fails e => (x.setWalk k (w.setFetch f)).finish k (.error e)
  | .delivers b p =>
    let (shared, next) := x.shared.release
    let (own, neighbour) := w.own.release
    let first := if w.tally.provider.isNone then [.firstBlock k p] else []
    let w := ({ w with own }.dropFetch f.ticket).take b p
    ({ x with shared }.setWalk k w,
      next.toList.map .wake ++ neighbour.toList.map .wake ++ first ++ [.write k b])

def advance (x : Exchange) (t : Ticket) : Exchange × List Effect :=
  match x.owner? t with
  | none => (x, [])
  | some (k, w) =>
    match w.writing, w.fetch? t with
    | none, some f =>
      let (f, own, shared, turn) := f.advance w.providers w.own x.shared
      { x with shared }.settle k { w with own } f turn
    | _, _ => (x, [])

/-- What the fetch of a ticket needs to go on, if there is one. -/
def need? (x : Exchange) (t : Ticket) : Option Need := do
  let (_, w) ← x.owner? t
  return (← w.fetch? t).need w.own x.shared

def answer (x : Exchange) (t : Ticket) (ended : Option Error) (a : Except Error Block) :
    Exchange × List Effect :=
  match x.owner? t with
  | none => (x, [])
  | some (k, w) =>
    match w.writing, w.fetch? t with
    | none, some f =>
      let (f, turn) := f.answer x.limit ended a
      x.settle k w f turn
    | _, _ => (x, [])

/-- Goes on after the block of a walk was written. -/
def written (x : Exchange) (k : Key) (r : Except Error Unit) : Exchange × List Effect :=
  match x.walk? k with
  | none => (x, [])
  | some w =>
    match w.writing with
    | none => (x, [])
    | some links =>
      match r with
      | .error e => x.finish k (.error e)
      | .ok () =>
        let w := { w with writing := none }.spawn x.fresh links
        let woken := links.mapIdx fun i _ => Effect.wake (x.fresh + i)
        let x := { x.setWalk k w with fresh := x.fresh + links.length }
        if w.fetches.isEmpty then
          let (x, effects) := x.finish k (.ok w.tally)
          (x, woken ++ effects)
        else (x, woken)

/-! ## Runs -/

inductive Action where
  | start (root : Cid) (providers : List ProviderId)
  | advance (t : Ticket)
  | answer (t : Ticket) (ended : Option Error) (a : Except Error Block)
  | written (k : Key) (r : Except Error Unit)
  | drop (k : Key)
  deriving Repr

/-- Does one thing. A walk that cannot have its slots does not begin. -/
def step (x : Exchange) : Action → Exchange × List Effect
  | .start root providers => if x.admits then (x.start root providers).2 else (x, [])
  | .advance t => x.advance t
  | .answer t ended a => x.answer t ended a
  | .written k r => x.written k r
  | .drop k => x.drop k

/-- Runs some actions; what they call for comes in order. -/
def run (x : Exchange) : List Action → Exchange × List Effect
  | [] => (x, [])
  | a :: l =>
    let (y, now) := x.step a
    let (z, later) := y.run l
    (z, now ++ later)

end Exchange

end Courier
