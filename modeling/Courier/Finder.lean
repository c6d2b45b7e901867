import Courier.Candidate
/-!
# The table of announcements

For every root the candidates announced for it, in the order of their latest
announcements. A root without candidates has no entry.
-/

namespace Courier

structure Finder where
  table : List (Cid × List Candidate) := []
  deriving DecidableEq, Repr, Inhabited

namespace Finder

/-- The candidates of a root, the latest announcement last. -/
def find (f : Finder) (root : Cid) : List Candidate := (f.table.lookup root).getD []

/-- Gives a root its candidates; none leave no entry. -/
def set (f : Finder) (root : Cid) (l : List Candidate) : Finder :=
  let others := f.table.filter (·.1 ≠ root)
  if l = [] then ⟨others⟩ else ⟨(root, l) :: others⟩

/-- Replaces an earlier announcement of the provider for the root. -/
def announce (f : Finder) (c : Candidate) : Finder :=
  f.set c.root ((f.find c.root).filter (·.provider ≠ c.provider) ++ [c])

/-- Takes back what the provider announced for the root. -/
def withdraw (f : Finder) (root : Cid) (p : ProviderId) : Finder :=
  f.set root ((f.find root).filter (·.provider ≠ p))

inductive Action where
  | announce (c : Candidate)
  | withdraw (root : Cid) (p : ProviderId)
  deriving DecidableEq, Repr

namespace Action

def root : Action → Cid
  | .announce c => c.root
  | .withdraw r _ => r

def provider : Action → ProviderId
  | .announce c => c.provider
  | .withdraw _ p => p

end Action

def act (f : Finder) : Action → Finder
  | .announce c => f.announce c
  | .withdraw r p => f.withdraw r p

def run (f : Finder) (as : List Action) : Finder := as.foldl act f

end Finder

end Courier
