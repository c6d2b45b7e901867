import Courier.Block
/-!
# Block stores

A store keeps one block per identifier, the last one written. It counts the
writes, and the octets of each identifier's first block.
-/

namespace Courier

/-- The blocks kept, in the order in which their identifiers came first. -/
structure Store where
  blocks : List Block := []
  size : Nat := 0
  puts : Nat := 0
  deriving DecidableEq, Repr, Inhabited

namespace Store

def get? (s : Store) (c : Cid) : Option Block := s.blocks.find? (·.cid = c)

def contains (s : Store) (c : Cid) : Bool := (s.get? c).isSome

def length (s : Store) : Nat := s.blocks.length

def isEmpty (s : Store) : Bool := s.length = 0

def insert (s : Store) (b : Block) : Store :=
  if s.contains b.cid then
    { s with
      blocks := s.blocks.map fun c => if c.cid = b.cid then b else c
      puts := s.puts + 1 }
  else
    { blocks := s.blocks ++ [b], size := s.size + b.data.length, puts := s.puts + 1 }

def extend (s : Store) (bs : List Block) : Store := bs.foldl insert s

inductive Action where
  | insert (b : Block)
  /-- A block that is put into a sink, which a store never refuses. -/
  | put (b : Block)
  | extend (bs : List Block)
  deriving DecidableEq, Repr

def act (s : Store) : Action → Store
  | .insert b | .put b => s.insert b
  | .extend bs => s.extend bs

def run (s : Store) (as : List Action) : Store := as.foldl act s

end Store

end Courier
