import Courier.Archive.Verify
/-!
# Complete trees of blocks

Inner nodes hold the identifiers of their children, leaves are given. The
blocks are listed root first, children in link order.
-/

namespace Courier.Dag

/-- The tree of height `depth` whose first leaf is number `i`. -/
def tree (fanout : Nat) (leaf : Nat → Bytes) : Nat → Nat → List Block
  | 0, i => [{ cid := Archive.cidFor (leaf i), data := leaf i }]
  | depth + 1, i =>
    let children := (List.range fanout).map fun k =>
      tree fanout leaf depth (i + k * Nat.pow fanout depth)
    let links := children.filterMap fun c => c.head?.map (·.cid)
    let data := links.flatMap (·.bytes)
    { cid := Archive.cidFor data, data, links } :: children.flatten

end Courier.Dag
