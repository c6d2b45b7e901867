import Courier.Duration
import Courier.Ident
/-!
# Provider policy

Which providers may be retrieved from, and how long and how often at once. A
provider on the block list is never used. If there is an allow list, only the
providers on it are, so an empty one allows nobody.
-/

namespace Courier

/-! ## Sets of providers -/

structure ProviderSet where
  members : List ProviderId
  nodup : members.Nodup
  deriving DecidableEq, Repr

namespace ProviderSet

def empty : ProviderSet := ⟨[], List.nodup_nil⟩

def insert (p : ProviderId) (s : ProviderSet) : ProviderSet :=
  if h : p ∈ s.members then s else ⟨p :: s.members, List.nodup_cons.2 ⟨h, s.nodup⟩⟩

def ofList (l : List ProviderId) : ProviderSet := l.foldr insert empty

def contains (s : ProviderSet) (p : ProviderId) : Bool := decide (p ∈ s.members)

def size (s : ProviderSet) : Nat := s.members.length

end ProviderSet

/-! ## Policies -/

/-- The time a provider has unless something else is said. -/
def defaultProviderTimeout : Duration := Duration.ofSecs 20

structure ProviderConfig where
  /-- How long the provider may go without delivering data. -/
  timeout : Duration := defaultProviderTimeout
  /-- How many retrievals from it there may be at once; zero for any number. -/
  limit : UInt64 := 0
  deriving DecidableEq, Repr, Inhabited

structure Policy where
  block : Option ProviderSet := none
  allow : Option ProviderSet := none
  default : ProviderConfig := {}
  overrides : List (ProviderId × ProviderConfig) := []
  deriving DecidableEq, Repr, Inhabited

namespace Policy

def accepts (p : Policy) (id : ProviderId) : Bool :=
  let blocked := match p.block with
    | some b => b.contains id
    | none => false
  if blocked then false
  else
    match p.allow with
    | none => true
    | some a => a.contains id

/-- The limits of a provider: its own, or else those of everybody. -/
def configOf (p : Policy) (id : ProviderId) : ProviderConfig :=
  (p.overrides.lookup id).getD p.default

/-- Gives one provider a policy of its own, replacing an earlier one. -/
def override (p : Policy) (id : ProviderId) (c : ProviderConfig) : Policy :=
  { p with overrides := (id, c) :: p.overrides.filter (·.1 ≠ id) }

end Policy

end Courier
