import Courier.Error
import Courier.Network.Traversal
import Courier.Digest.Sha256
import Courier.Json.Value
/-!
# Hosts in memory

A host serves the blocks of its store to the other hosts on its network until
it leaves. Networks are told apart by name; a host that names none is on the
common one.
-/

namespace Courier

/-- A host that serves others. -/
structure Peer where
  id : ProviderId
  network : String
  store : Store := {}
  deriving DecidableEq, Repr, Inhabited

structure Network where
  peers : List Peer := []
  /-- How many hosts there have ever been. -/
  joined : Nat := 0
  deriving Repr, Inhabited

namespace Network

/-- The name of the network of those who name none. -/
def common : String := "ThreadId(1)"

def identity (n : Nat) : ProviderId := ⟨Sha256.digest (Bytes.bigEndian 8 n)⟩

/-- Adds a host with an identity of its own. -/
def join (n : Network) (name : String) : Network × ProviderId :=
  let id := identity n.joined
  (⟨n.peers ++ [{ id, network := name }], n.joined + 1⟩, id)

/-- Takes a host away; it serves nobody any more. -/
def leave (n : Network) (id : ProviderId) : Network :=
  { n with peers := n.peers.filter (·.id ≠ id) }

def update (n : Network) (id : ProviderId) (f : Store → Store) : Network :=
  { n with peers := n.peers.map fun p => if p.id = id then { p with store := f p.store } else p }

/-- The store of a provider on a network. -/
def reach (n : Network) (name : String) (id : ProviderId) : Except Error Store :=
  match n.peers.find? fun p => p.id = id ∧ p.network = name with
  | some p => .ok p.store
  | none => .error (.failed (.unreachable id))

def request (n : Network) (name : String) (id : ProviderId) (c : Cid) :
    Except Error Block := do
  let s ← n.reach name id
  match s.get? c with
  | some b => return b
  | none => throw (.failed (.missing id c))

/-- Everything a provider has below a root. -/
def transfer (n : Network) (name : String) (id : ProviderId) (root : Cid) :
    Except Error (List Block) := do
  let s ← n.reach name id
  match Traversal.fromRoot s root with
  | .ok bs => return bs
  | .error c => throw (.failed (.missing id c))

end Network

/-! ## Options of a host -/

/-- The network that the options of a host name, or else the common one. -/
def Network.ofOptions (o : Json.Object) : Except Error String :=
  match o.get? "networkId" with
  | none => .ok Network.common
  | some (.text s) => .ok s
  | some v => .error (.failed (.networkOptions
      ("invalid type: " ++ v.describe ++ ", expected a string")))

end Courier
