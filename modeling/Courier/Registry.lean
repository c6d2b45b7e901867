import Courier.Error
/-!
# Protocol registries

The retrievers of an instance, at most one per known protocol. They are built
in the order of a list of protocols; codes nobody knows are skipped, and a
protocol that comes again is built again and replaces the earlier retriever.
-/

namespace Courier

/-- The protocol as a known one, if its code is that of one. -/
def Protocol.known? (p : Protocol) : Option Protocol :=
  match ofCode p.code with
  | .other _ => none
  | q => some q

/-- Retrievers by protocol, `ρ` being what retrieves. -/
structure Registry (ρ : Type) where
  entries : List (Protocol × ρ) := []

namespace Registry

def find? (r : Registry ρ) (p : Protocol) : Option ρ :=
  (r.entries.find? fun e => e.1.same p).map (·.2)

def contains (r : Registry ρ) (p : Protocol) : Bool := r.entries.any fun e => e.1.same p

def insert (r : Registry ρ) (p : Protocol) (x : ρ) : Registry ρ :=
  if r.contains p then ⟨r.entries.map fun e => if e.1.same p then (e.1, x) else e⟩
  else ⟨r.entries ++ [(p, x)]⟩

/-- The protocols there are retrievers of, by code. -/
def protocols (r : Registry ρ) : List Protocol := Protocol.sortByCode (r.entries.map (·.1))

/-- Builds retrievers onto those there are, in a monad in which making one may fail. -/
def fill [Monad m] (make : Protocol → m ρ) : Registry ρ → List Protocol → m (Registry ρ)
  | r, [] => pure r
  | r, p :: ps =>
    match p.known? with
    | none => fill make r ps
    | some q => do
      let x ← make q
      fill make (r.insert q x) ps

/-- Builds retrievers onto those there are. `make` is told for which protocols it was called
before; the calls made are listed, and the first failure ends it. -/
def buildOnto (make : List Protocol → Protocol → Except Error ρ) :
    List Protocol → Registry ρ → List Protocol → List Protocol × Except Error (Registry ρ)
  | made, r, [] => (made, .ok r)
  | made, r, p :: ps =>
    match p.known? with
    | none => buildOnto make made r ps
    | some q =>
      match make made q with
      | .error e => (made ++ [q], .error e)
      | .ok x => buildOnto make (made ++ [q]) (r.insert q x) ps

/-- Builds the retrievers of a list of protocols; tells the calls made. -/
def build (make : List Protocol → Protocol → Except Error ρ) (ps : List Protocol) :
    List Protocol × Except Error (Registry ρ) := buildOnto make [] {} ps

end Registry

end Courier
