import Courier.Network.Basic
/-!
# Hosts by name

Hosts that join networks, and ask others for blocks. A name stands for the
latest host that has it, even after that host has left; a host whose name is
taken over leaves.
-/

namespace Courier.Simulation

structure NamedHost where
  name : String
  id : ProviderId
  network : String
  deriving Repr

structure Hosts where
  network : Network := {}
  hosts : List NamedHost := []
  /-- The networks that transfer clients reach. -/
  clients : List (String × String) := []
  deriving Repr

namespace Hosts

def find? (h : Hosts) (name : String) : Option NamedHost := h.hosts.find? (·.name = name)

/-- The identity a name stands for, which is empty for an unknown name. -/
def idOf (h : Hosts) (name : String) : ProviderId := ((h.find? name).map (·.id)).getD ⟨[]⟩

def create (h : Hosts) (name : String) (network : String) : Hosts :=
  let left := match h.find? name with
    | some old => h.network.leave old.id
    | none => h.network
  let (joined, id) := left.join network
  { h with
    network := joined
    hosts := ⟨name, id, network⟩ :: h.hosts.filter (·.name ≠ name) }

def createWith (h : Hosts) (name : String) (o : Json.Object) : Except Error Hosts := do
  return h.create name (← Network.ofOptions o)

/-- Lets a host leave its network; whether it was there. -/
def drop (h : Hosts) (name : String) : Hosts × Bool :=
  let id := h.idOf name
  ({ h with network := h.network.leave id }, h.network.peers.any (·.id = id))

def insert (h : Hosts) (name : String) (bs : List Block) : Hosts :=
  { h with network := h.network.update (h.idOf name) (·.extend bs) }

def stored (h : Hosts) (name : String) : Nat :=
  match h.find? name with
  | none => 0
  | some host =>
    match h.network.reach host.network host.id with
    | .ok s => s.length
    | .error _ => 0

def request (h : Hosts) (name : String) (source : ProviderId) (c : Cid) :
    Option (Except Error Block) :=
  (h.find? name).map fun host => h.network.request host.network source c

def client (h : Hosts) (name : String) : Hosts :=
  match h.find? name with
  | none => h
  | some host =>
    { h with clients := (name, host.network) :: h.clients.filter (·.1 ≠ name) }

/-- The transfer client of a host asks for a graph. -/
def retrieve (h : Hosts) (name : String) (source : ProviderId) (c : Cid) :
    Option (Except Error (List Block)) :=
  (h.clients.lookup name).map fun network => h.network.transfer network source c

end Hosts

end Courier.Simulation
