import Courier.Store
/-!
# Walking a store depth first

The blocks reachable from a root are listed root first, children in link order,
each once. The walk keeps a stack of identifiers still to visit. It ends since
every identifier it visits for the first time is one fewer in the store.
-/

namespace Courier

theorem Store.mem_of_get? {s : Store} {c : Cid} {b : Block} (h : s.get? c = some b) :
    b ∈ s.blocks ∧ b.cid = c := by
  unfold Store.get? at h
  exact ⟨List.mem_of_find?_eq_some h, by simpa using List.find?_some h⟩

namespace Traversal

/-- The stored blocks not yet visited. -/
def unvisited (s : Store) (seen : List Cid) : List Block :=
  s.blocks.filter fun b => decide (b.cid ∉ seen)

theorem length_filter_lt {α : Type} {p q : α → Bool} {l : List α} {a : α}
    (h : ∀ x, p x = true → q x = true) (ha : a ∈ l) (hq : q a = true) (hp : p a = false) :
    (l.filter p).length < (l.filter q).length := by
  have hsub : l.filter p = (l.filter q).filter p := by
    rw [List.filter_filter]
    congr 1
    funext x
    cases hx : p x with
    | false => simp
    | true => simp [h x hx]
  rw [hsub, List.length_filter_lt_length_iff_exists]
  exact ⟨a, List.mem_filter.2 ⟨ha, hq⟩, by simp [hp]⟩

theorem unvisited_lt {s : Store} {seen : List Cid} {c : Cid} {b : Block}
    (hc : c ∉ seen) (h : s.get? c = some b) :
    (unvisited s (c :: seen)).length < (unvisited s seen).length := by
  obtain ⟨hb, hbc⟩ := Store.mem_of_get? h
  refine length_filter_lt ?_ hb ?_ ?_
  · intro x hx
    simp only [List.mem_cons, not_or, decide_eq_true_eq] at hx ⊢
    exact hx.2
  · simpa [hbc] using hc
  · simp [hbc]

/-- Visits the identifiers on the stack, or names the first one that is not stored. -/
def walk (s : Store) (seen : List Cid) : List Cid → Except Cid (List Block)
  | [] => .ok []
  | c :: stack =>
    if c ∈ seen then walk s seen stack
    else
      match _h : s.get? c with
      | none => .error c
      | some b => (walk s (c :: seen) (b.links ++ stack)).map (b :: ·)
termination_by stack => ((unvisited s seen).length, stack.length)
decreasing_by
  · exact Prod.Lex.right _ (by simp)
  · exact Prod.Lex.left _ _ (unvisited_lt ‹_› ‹_›)

def fromRoot (s : Store) (root : Cid) : Except Cid (List Block) := walk s [] [root]

end Traversal

end Courier
