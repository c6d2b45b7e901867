import Courier.Archive.Reader
import Courier.Archive.Verify
import Courier.Attempt.Basic
import Courier.Endpoint
/-!
# Downloads from gateways

A gateway answers one request with an archive of the whole graph. Its blocks
are written as they arrive. The first must be the root, and every block must
match its identifier before it is written.
-/

namespace Courier.Download

/-- The body of an answer, as far as it has come. -/
structure Body where
  endpoint : String
  began : Instant
  reader : Archive.Reader := {}
  /-- Octets of data in the blocks read. -/
  size : Nat := 0
  deriving DecidableEq, Repr

inductive Phase where
  | acquiring (endpoint : String)
  | requesting (endpoint : String) (began : Instant)
  | receiving (body : Body)
  | placing (body : Body) (block : Block)
  deriving DecidableEq, Repr

def demand : Phase → Demand
  | .acquiring _ => .permit
  | .requesting e _ => .response e
  | .receiving b => .body b.endpoint
  | .placing _ b => .writing b

def url (endpoint : String) (root : Cid) : String :=
  endpoint ++ "/ipfs/" ++ root.text ++ "?dag-scope=all"

/-- Downloads go to the first address that leads to a gateway. -/
def start (c : Candidate) : Except Error Phase :=
  match c.addrs.findSome? Endpoint.ofAddress with
  | some e => .ok (.acquiring e)
  | none => .error (.failed .noAddress)

/-- Goes on with a block that was read, if it is as it has to be. -/
def place (body : Body) (b : Block) : Outcome Phase :=
  match Archive.verify b with
  | .error f => .fails (.failed (.archive f))
  | .ok () => .goes (.placing { body with size := body.size + b.data.length } b)

/-- Goes on with the next block of what has arrived. -/
def pull (root : Cid) (now : Instant) (body : Body) : Advance Phase :=
  match body.reader.next with
  | (_, .error f) => { outcome := .fails (.failed (.archive f)) }
  | (reader, .ok none) => { outcome := .goes (.receiving { body with reader }) }
  | (reader, .ok (some b)) =>
    if reader.blocks ≠ 1 then { outcome := place { body with reader } b }
    else if b.cid ≠ root then { outcome := .fails (.failed (.streamStart b.cid)) }
    else { first := some (now.since body.began), outcome := place { body with reader } b }

def close (body : Body) : Outcome Phase :=
  match body.reader.finish with
  | .error f => .fails (.failed (.archive f))
  | .ok () =>
    if body.reader.blocks = 0 then .fails (.failed .emptyStream)
    else .succeeds body.began body.size body.reader.blocks

/-- Takes a download on. What it does not wait for leaves it as it is. -/
def step (root : Cid) (now : Instant) : Phase → Input → Advance Phase
  | _, .failure e => { outcome := .fails e }
  | .acquiring e, .permit => { outcome := .goes (.requesting e now) }
  | .requesting e began, .response => { outcome := .goes (.receiving { endpoint := e, began }) }
  | .requesting e _, .silence limit => { outcome := .fails (.failed (.noData e limit)) }
  | .receiving body, .body octets =>
    pull root now { body with reader := body.reader.push octets }
  | .receiving body, .bodyEnd => { outcome := close body }
  | .receiving body, .silence limit => { outcome := .fails (.failed (.noData body.endpoint limit)) }
  | .placing body _, .written => pull root now body
  | phase, _ => { outcome := .goes phase }

def transport : Transport Phase where
  protocol := .http
  start := start
  demand := demand
  step := step
  report := id

end Courier.Download
