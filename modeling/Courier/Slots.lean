/-!
# Slots

A fixed number of slots is lent to tickets, first come first served. A slot
given back while tickets wait is handed to the first of them and stays its own
until it resumes; a ticket that goes away in the meantime passes it on. A ticket
that lines up while a slot is free is handed it there and then.
-/

namespace Courier

/-- What waits for a slot is known by its ticket. -/
abbrev Ticket := Nat

structure Slots where
  free : Nat
  waiting : List Ticket := []
  /-- Tickets that were handed a slot and have not resumed. -/
  handed : List Ticket := []
  deriving DecidableEq, Repr, Inhabited

namespace Slots

def maximum : Nat := Nat.pow 2 61 - 1

def ofSize? (n : Nat) : Option Slots := if n ≤ maximum then some { free := n } else none

def acquire (s : Slots) (t : Ticket) : Slots × Bool :=
  match s.free with
  | 0 => ({ s with waiting := s.waiting ++ [t] }, false)
  | n + 1 => ({ s with free := n }, true)

/-- Lines up for a slot, and is handed one that is free. -/
def request (s : Slots) (t : Ticket) : Slots :=
  match s.free with
  | 0 => { s with waiting := s.waiting ++ [t] }
  | n + 1 => { s with free := n, handed := s.handed ++ [t] }

def release (s : Slots) : Slots × Option Ticket :=
  match s.waiting with
  | [] => ({ s with free := s.free + 1 }, none)
  | t :: r => ({ s with waiting := r, handed := s.handed ++ [t] }, some t)

/-- Takes the slot that was handed to a ticket, if one was. -/
def resume? (s : Slots) (t : Ticket) : Option Slots :=
  if t ∈ s.handed then some { s with handed := s.handed.erase t } else none

/-- Lets a ticket go that holds no slot; tells to whom its handed slot went on. -/
def abandon (s : Slots) (t : Ticket) : Slots × Option Ticket :=
  if t ∈ s.handed then release { s with handed := s.handed.erase t }
  else ({ s with waiting := s.waiting.erase t }, none)

end Slots

end Courier
