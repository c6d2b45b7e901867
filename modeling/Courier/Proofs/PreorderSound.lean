import Courier.Dag
import Courier.Network.Basic
import Courier.Proofs.StoreSound
import Courier.Proofs.TraversalSound

/-!
# Transfers come in preorder

The traversal that calls itself for the links of each block it visits
(`preorder`) lists what the walk with a stack lists: whatever stands below an
identifier on the stack is visited before the next one is. Where the links lead
back nowhere, all that is below an identifier can be listed with repetitions
(`Unfolds`), as a tree of blocks does, and the walk keeps the first of each.
-/

namespace Courier

namespace Traversal

variable {s : Store} {seen seen' cs ds stack : List Cid} {c d : Cid} {b : Block} {l l' bs : List Block}

theorem unvisited_le (h : ∀ c ∈ seen, c ∈ seen') :
    (unvisited s seen').length ≤ (unvisited s seen).length := by
  refine (List.monotone_filter_right s.blocks fun b hb => ?_).length_le
  simp only [decide_eq_true_eq] at hb ⊢
  exact fun hs => hb (h _ hs)

/-- Visits each of some identifiers, and all that is below it, before the next one. What was visited
before is skipped; the first that is not stored is named. -/
def preorder (s : Store) (seen : List Cid) : List Cid → Except Cid (List Block)
  | [] => .ok []
  | c :: cs =>
    if c ∈ seen then preorder s seen cs
    else
      match _h : s.get? c with
      | none => .error c
      | some b =>
        match preorder s (c :: seen) b.links with
        | .error d => .error d
        | .ok below => (preorder s (below.map (·.cid) ++ c :: seen) cs).map (b :: below ++ ·)
termination_by cs => ((unvisited s seen).length, cs.length)
decreasing_by
  · exact Prod.Lex.right _ (by simp)
  · exact Prod.Lex.left _ _ (unvisited_lt ‹_› ‹_›)
  · refine Prod.Lex.left _ _ (Nat.lt_of_le_of_lt (unvisited_le fun d hd => ?_) (unvisited_lt ‹_› ‹_›))
    exact List.mem_append_right _ hd

/-! ## The stack -/

theorem walk_visit (hc : c ∉ seen) (hb : s.get? c = some b) :
    walk s seen (c :: stack) = (walk s (c :: seen) (b.links ++ stack)).map (b :: ·) := by
  rw [walk, if_neg hc]
  split
  · simp_all
  · next b' hb' =>
    obtain rfl : b = b' := Option.some.inj (hb.symm.trans hb')
    rfl

theorem walk_missing (hc : c ∉ seen) (hn : s.get? c = none) :
    walk s seen (c :: stack) = .error c := by
  rw [walk, if_neg hc]
  split
  · rfl
  · simp_all

/-- The order in which identifiers were visited does not matter. -/
theorem walk_congr (h : ∀ c, c ∈ seen ↔ c ∈ seen') : walk s seen stack = walk s seen' stack := by
  fun_induction walk s seen stack generalizing seen' with
  | case1 => rw [walk]
  | case2 seen c stack hc ih => rw [walk, if_pos ((h c).mp hc), ih h]
  | case3 seen c stack hc hn => rw [walk_missing (fun hs => hc ((h c).mpr hs)) hn]
  | case4 seen c stack hc b hb ih =>
    have hcons : ∀ d, d ∈ c :: seen ↔ d ∈ c :: seen' := fun d => by simp only [List.mem_cons, h d]
    rw [walk_visit (fun hs => hc ((h c).mpr hs)) hb, ih hcons]

/-- A stack is visited from the top, each identifier with all below it. -/
theorem walk_append (s : Store) (seen cs stack : List Cid) :
    walk s seen (cs ++ stack) =
      match preorder s seen cs with
      | .error d => .error d
      | .ok bs => (walk s (bs.map (·.cid) ++ seen) stack).map (bs ++ ·) := by
  fun_induction preorder s seen cs generalizing stack with
  | case1 seen => cases h : walk s seen stack <;> simp [Except.map, h]
  | case2 seen c cs hc ih => rw [List.cons_append, walk, if_pos hc, ih]
  | case3 seen c cs hc hn => rw [List.cons_append, walk_missing hc hn]
  | case4 seen c cs hc b hb d hd ih =>
    rw [List.cons_append, walk_visit hc hb, ih, hd]
    rfl
  | case5 seen c cs hc b hb below hbelow ih ih' =>
    rw [List.cons_append, walk_visit hc hb, ih, hbelow]
    simp only [ih']
    obtain rfl := (Store.mem_of_get? hb).2
    cases preorder s (below.map (·.cid) ++ b.cid :: seen) cs with
    | error d => rfl
    | ok rest =>
      -- the same were visited, though in another order
      have hsame : walk s (rest.map (·.cid) ++ (below.map (·.cid) ++ b.cid :: seen)) stack =
          walk s ((b :: below ++ rest).map (·.cid) ++ seen) stack :=
        walk_congr fun d => by
          simp only [List.map_append, List.map_cons, List.mem_append, List.mem_cons]
          tauto
      simp only [Except.map, hsame]
      cases walk s ((b :: below ++ rest).map (·.cid) ++ seen) stack with
      | error d => rfl
      | ok bs => simp

theorem fromRoot_eq_preorder (s : Store) (root : Cid) : fromRoot s root = preorder s [] [root] := by
  have h := walk_append s [] [root] []
  rw [List.append_nil] at h
  rw [fromRoot, h]
  cases preorder s [] [root] with
  | error d => rfl
  | ok bs => simp [walk, Except.map]

/-! ## Where links lead back nowhere -/

/-- All that is below some identifiers, listed as often as it is linked to. -/
inductive Unfolds (s : Store) : List Cid → List Block → Prop
  | nil : Unfolds s [] []
  | cons {c : Cid} {cs : List Cid} {b : Block} {below rest : List Block} : s.get? c = some b →
      Unfolds s b.links below → Unfolds s cs rest → Unfolds s (c :: cs) (b :: below ++ rest)

theorem Unfolds.append (h : Unfolds s cs l) (h' : Unfolds s ds l') : Unfolds s (cs ++ ds) (l ++ l') := by
  induction h with
  | nil => exact h'
  | cons hb hbelow _ _ ih =>
    rw [List.append_assoc]
    exact .cons hb hbelow ih

theorem Unfolds.unique (h : Unfolds s cs l) (h' : Unfolds s cs l') : l = l' := by
  induction h generalizing l' with
  | nil =>
    cases h'
    rfl
  | cons hb _ _ ih ih' =>
    cases h' with
    | cons hb' hbelow' hrest' =>
      obtain rfl := Option.some.inj (hb.symm.trans hb')
      rw [ih hbelow', ih' hrest']

theorem Unfolds.stored (h : Unfolds s cs l) : ∀ x ∈ l, s.get? x.cid = some x := by
  induction h with
  | nil => simp
  | cons hb _ _ ih ih' =>
    obtain rfl := (Store.mem_of_get? hb).2
    rw [List.forall_mem_append, List.forall_mem_cons]
    exact ⟨⟨hb, ih⟩, ih'⟩

/-- What is below a listed block is listed by fewer. -/
theorem Unfolds.of_mem (h : Unfolds s cs l) :
    ∀ x ∈ l, ∃ l', Unfolds s x.links l' ∧ (∀ y ∈ l', y ∈ l) ∧ l'.length < l.length := by
  induction h with
  | nil => simp
  | @cons c cs b below rest hb hbelow _ ih ih' =>
    have hlen : (b :: below ++ rest).length = below.length + rest.length + 1 := by
      simp only [List.length_append, List.length_cons]
      omega
    rw [hlen, List.forall_mem_append, List.forall_mem_cons]
    refine ⟨⟨⟨below, hbelow, by simp +contextual, by omega⟩, fun x hx => ?_⟩, fun x hx => ?_⟩
    · obtain ⟨l', hl', hsub, hlt⟩ := ih x hx
      exact ⟨l', hl', fun y hy => by simp [hsub y hy], by omega⟩
    · obtain ⟨l', hl', hsub, hlt⟩ := ih' x hx
      exact ⟨l', hl', fun y hy => by simp [hsub y hy], by omega⟩

theorem Unfolds.mem_cids (h : Unfolds s cs l) : ∀ c ∈ cs, c ∈ l.map (·.cid) := by
  induction h with
  | nil => simp
  | cons hb _ _ _ ih =>
    obtain rfl := (Store.mem_of_get? hb).2
    rw [List.forall_mem_cons]
    exact ⟨by simp, fun c hc => by simp [ih c hc]⟩

/-- What is linked to by what is listed is listed. -/
theorem Unfolds.closed (h : Unfolds s cs l) {x : Block} (hx : x ∈ l) :
    ∀ d ∈ x.links, d ∈ l.map (·.cid) := by
  intro d hd
  obtain ⟨l', hl', hsub, -⟩ := h.of_mem x hx
  obtain ⟨y, hy, rfl⟩ := List.mem_map.mp (hl'.mem_cids d hd)
  exact List.mem_map_of_mem (hsub y hy)

theorem Unfolds.eq_of_cid (h : Unfolds s cs l) {x : Block} (hx : x ∈ l) (hb : s.get? x.cid = some b) :
    x = b := by
  have := h.stored x hx
  rw [hb] at this
  exact (Option.some.inj this).symm

/-- Nothing is below itself. -/
theorem Unfolds.irrefl (h : Unfolds s b.links l) (hb : s.get? c = some b) : c ∉ l.map (·.cid) := by
  intro hc
  obtain ⟨x, hx, rfl⟩ := List.mem_map.mp hc
  obtain rfl := h.eq_of_cid hx hb
  obtain ⟨l', hl', -, hlt⟩ := h.of_mem x hx
  rw [h.unique hl'] at hlt
  exact Nat.lt_irrefl _ hlt

/-- If some identifiers were visited, and with every block also what it links to, then all that is
below them was. -/
theorem Unfolds.all_seen (h : Unfolds s cs l) (hcs : ∀ c ∈ cs, c ∈ seen)
    (hl : ∀ x ∈ l, x.cid ∈ seen → ∀ d ∈ x.links, d ∈ seen) : ∀ x ∈ l, x.cid ∈ seen := by
  induction h with
  | nil => simp
  | cons hb _ _ ih ih' =>
    obtain rfl := (Store.mem_of_get? hb).2
    rw [List.forall_mem_cons] at hcs
    rw [List.forall_mem_append, List.forall_mem_cons] at hl ⊢
    exact ⟨⟨hcs.1, ih (hl.1.1 hcs.1) hl.1.2⟩, ih' hcs.2 hl.2⟩

/-- The first of each of some blocks, without those that were visited. -/
def firsts (seen : List Cid) (l : List Block) : List Block := (l.filter (·.cid ∉ seen)).eraseDups

theorem mem_firsts {x : Block} : x ∈ firsts seen l ↔ x ∈ l ∧ x.cid ∉ seen := by
  simp [firsts, List.mem_eraseDups]

theorem firsts_append_of_seen (h : ∀ x ∈ l, x.cid ∈ seen) : firsts seen (l ++ l') = firsts seen l' := by
  have hnil : l.filter (·.cid ∉ seen) = [] := by
    rw [List.filter_eq_nil_iff]
    exact fun x hx => by simp [h x hx]
  rw [firsts, List.filter_append, hnil, List.nil_append, firsts]

theorem firsts_cons_append
    (hinj : ∀ x ∈ b :: l ++ l', ∀ y ∈ b :: l ++ l', x.cid = y.cid → x = y) (hb : b.cid ∉ seen) :
    firsts seen (b :: l ++ l') = b :: firsts (b.cid :: seen) l ++
      firsts ((firsts (b.cid :: seen) l).map (·.cid) ++ b.cid :: seen) l' := by
  have hmem {x : Block} (hx : x ∈ l ∨ x ∈ l') : x ∈ b :: l ++ l' := by
    simpa using .inr hx
  have hne {x : Block} (hx : x ∈ l ∨ x ∈ l') : x = b ↔ x.cid = b.cid :=
    ⟨fun h => h ▸ rfl, hinj x (hmem hx) b (by simp)⟩
  have hl : (l.filter (·.cid ∉ seen)).filter (fun x => !x == b) = l.filter (·.cid ∉ b.cid :: seen) := by
    rw [List.filter_filter]
    refine List.filter_congr fun x hx => ?_
    rw [Bool.eq_iff_iff]
    simp [hne (.inl hx)]
  have hl' : ((l'.filter (·.cid ∉ seen)).filter (fun x => !x == b)).removeAll
        (l.filter (·.cid ∉ b.cid :: seen)) =
      l'.filter (·.cid ∉ (firsts (b.cid :: seen) l).map (·.cid) ++ b.cid :: seen) := by
    rw [List.removeAll, List.filter_filter, List.filter_filter]
    refine List.filter_congr fun x hx => ?_
    have hcid : x ∈ l.filter (·.cid ∉ b.cid :: seen) ↔
        x.cid ∈ (firsts (b.cid :: seen) l).map (·.cid) := by
      simp only [List.mem_map, mem_firsts, List.mem_filter, decide_eq_true_eq]
      constructor
      · exact fun h => ⟨x, h, rfl⟩
      · rintro ⟨y, hy, hyx⟩
        rwa [← hinj y (hmem (.inl hy.1)) x (hmem (.inr hx)) hyx]
    rw [Bool.eq_iff_iff]
    simp only [List.elem_eq_mem, hcid, hne (.inr hx), Bool.and_eq_true, Bool.not_eq_true',
      decide_eq_false_iff_not, decide_eq_true_eq, beq_eq_false_iff_ne, ne_eq]
    rw [List.mem_append, List.mem_cons]
    tauto
  have hfirst : (b :: l ++ l').filter (·.cid ∉ seen) =
      b :: (l.filter (·.cid ∉ seen) ++ l'.filter (·.cid ∉ seen)) := by
    rw [List.cons_append, List.filter_cons_of_pos (by simpa using hb), List.filter_append]
  simp only [firsts] at hl' ⊢
  rw [hfirst, List.eraseDups_cons, List.filter_append, List.eraseDups_append, hl, hl', List.cons_append]

/-- Where links lead back nowhere, the traversal lists the first of each of the blocks. -/
theorem Unfolds.preorder_eq (h : Unfolds s cs l)
    (hl : ∀ x ∈ l, x.cid ∈ seen → ∀ d ∈ x.links, d ∈ seen) :
    preorder s seen cs = .ok (firsts seen l) := by
  induction h generalizing seen with
  | nil => rw [preorder, firsts, List.filter_nil, List.eraseDups_nil]
  | @cons c cs b below rest hb hbelow hrest ih ih' =>
    obtain rfl := (Store.mem_of_get? hb).2
    have hall := Unfolds.cons hb hbelow hrest
    have hparts := hl
    rw [List.forall_mem_append, List.forall_mem_cons] at hparts
    by_cases hc : b.cid ∈ seen
    · have hseen : ∀ x ∈ b :: below, x.cid ∈ seen := by
        rw [List.forall_mem_cons]
        exact ⟨hc, hbelow.all_seen (hparts.1.1 hc) hparts.1.2⟩
      rw [preorder, if_pos hc, ih' hparts.2, firsts_append_of_seen hseen]
    · have hvisit : preorder s (b.cid :: seen) b.links = .ok (firsts (b.cid :: seen) below) := by
        refine ih fun x hx hxs d hd => List.mem_cons_of_mem _ ?_
        rcases List.mem_cons.mp hxs with hxb | hxs
        · exact absurd (List.mem_map.mpr ⟨x, hx, hxb⟩) (hbelow.irrefl hb)
        · exact hparts.1.2 x hx hxs d hd
      -- by now all that is below the block was visited
      have hdone : ∀ d ∈ below.map (·.cid),
          d ∈ (firsts (b.cid :: seen) below).map (·.cid) ++ b.cid :: seen := by
        intro d hd
        obtain ⟨x, hx, rfl⟩ := List.mem_map.mp hd
        by_cases hxs : x.cid ∈ b.cid :: seen
        · exact List.mem_append_right _ hxs
        · exact List.mem_append_left _ (List.mem_map_of_mem (mem_firsts.mpr ⟨hx, hxs⟩))
      have hgo : preorder s ((firsts (b.cid :: seen) below).map (·.cid) ++ b.cid :: seen) cs =
          .ok (firsts ((firsts (b.cid :: seen) below).map (·.cid) ++ b.cid :: seen) rest) := by
        refine ih' fun x hx hxs d hd => ?_
        rcases List.mem_append.mp hxs with hxs | hxs
        · obtain ⟨y, hy, hyx⟩ := List.mem_map.mp hxs
          have hyb := (mem_firsts.mp hy).1
          obtain rfl := hrest.eq_of_cid hx (hyx ▸ hbelow.stored y hyb)
          exact hdone d (hbelow.closed hyb d hd)
        · rcases List.mem_cons.mp hxs with hxb | hxs
          · obtain rfl := hrest.eq_of_cid hx (hxb ▸ hb)
            exact hdone d (hbelow.mem_cids d hd)
          · exact List.mem_append_right _ (List.mem_cons_of_mem _ (hparts.2 x hx hxs d hd))
      have hinj : ∀ x ∈ b :: below ++ rest, ∀ y ∈ b :: below ++ rest, x.cid = y.cid → x = y :=
        fun x hx y hy hxy => hall.eq_of_cid hx (hxy ▸ hall.stored y hy)
      rw [preorder, if_neg hc, firsts_cons_append hinj hc]
      split
      · simp_all
      · next b' hb' =>
        obtain rfl : b = b' := Option.some.inj (hb.symm.trans hb')
        rw [hvisit]
        simp only [hgo, Except.map]

end Traversal

open Traversal

/-! ## Trees -/

namespace Dag

variable {s : Store} {fanout : Nat} {leaf : Nat → Bytes}

theorem unfolds_children {ts : List (List Block)}
    (h : ∀ t ∈ ts, ∃ b l, t = b :: l ∧ Unfolds s [b.cid] t) :
    Unfolds s (ts.filterMap fun t => t.head?.map (·.cid)) ts.flatten := by
  induction ts with
  | nil => exact .nil
  | cons t ts ih =>
    obtain ⟨⟨b, l, rfl, hb⟩, hts⟩ := List.forall_mem_cons.mp h
    exact hb.append (ih hts)

/-- A tree lists all that is below its root. -/
theorem unfolds_tree {depth i : Nat} (hs : ∀ x ∈ tree fanout leaf depth i, s.get? x.cid = some x) :
    ∃ b l, tree fanout leaf depth i = b :: l ∧ Unfolds s [b.cid] (tree fanout leaf depth i) := by
  induction depth generalizing i with
  | zero =>
    rw [tree, List.forall_mem_singleton] at hs
    exact ⟨_, _, rfl, .cons hs .nil .nil⟩
  | succ depth ih =>
    rw [tree, List.forall_mem_cons] at hs
    refine ⟨_, _, rfl, ?_⟩
    have hchildren : ∀ t ∈ (List.range fanout).map fun k =>
        tree fanout leaf depth (i + k * Nat.pow fanout depth), ∃ b l, t = b :: l ∧ Unfolds s [b.cid] t := by
      intro t ht
      obtain ⟨k, -, rfl⟩ := List.mem_map.mp ht
      exact ih fun x hx => hs.2 x (List.mem_flatten.mpr ⟨_, ht, hx⟩)
    have := Unfolds.cons hs.1 (unfolds_children hchildren) .nil
    rwa [List.append_nil] at this

end Dag

/-! ## Transfers -/

theorem Store.get?_extend_of_mem {s : Store} {l : List Block} {b : Block}
    (hinj : ∀ x ∈ l, ∀ y ∈ l, x.cid = y.cid → x = y) (hb : b ∈ l) :
    (s.extend l).get? b.cid = some b := by
  induction l using List.reverseRecOn with
  | nil => cases hb
  | append_singleton l a ih =>
    have hextend : s.extend (l ++ [a]) = (s.extend l).insert a := List.foldl_append ..
    rw [hextend, get?_insert]
    split
    · next ha => rw [hinj a (by simp) b hb ha]
    · next ha =>
      have hbl : b ∈ l := by
        rcases List.mem_append.mp hb with hb | hb
        · exact hb
        · exact absurd (List.mem_singleton.mp hb ▸ rfl) ha
      exact ih (fun x hx y hy => hinj x (List.mem_append_left _ hx) y (List.mem_append_left _ hy)) hbl

namespace Network

variable {n : Network} {name : String} {p : ProviderId} {s : Store} {root : Cid}

theorem reach_update (hs : n.reach name p = .ok s) (f : Store → Store) :
    (n.update p f).reach name p = .ok (f s) := by
  have hsame (q : Peer) : (decide ((if q.id = p then { q with store := f q.store } else q).id = p ∧
      (if q.id = p then { q with store := f q.store } else q).network = name)) =
        decide (q.id = p ∧ q.network = name) := by
    split <;> rfl
  unfold reach at hs ⊢
  rw [update, List.find?_map]
  simp only [Function.comp_def, hsame]
  cases hq : n.peers.find? fun q => q.id = p ∧ q.network = name with
  | none =>
    rw [hq] at hs
    cases hs
  | some q =>
    rw [hq] at hs
    cases hs
    have hid : q.id = p ∧ q.network = name := by simpa using List.find?_some hq
    simp [hid.1]

theorem transfer_eq (hs : n.reach name p = .ok s) (root : Cid) :
    n.transfer name p root = (preorder s [] [root]).mapError fun c => .failed (.missing p c) := by
  simp only [transfer, hs, bind, Except.bind, fromRoot_eq_preorder]
  cases preorder s [] [root] <;> rfl

theorem transfer_tree (hs : n.reach name p = .ok s) {fanout depth i : Nat} {leaf : Nat → Bytes}
    {b : Block} {l : List Block} (ht : Dag.tree fanout leaf depth i = b :: l)
    (hstored : ∀ x ∈ b :: l, s.get? x.cid = some x) :
    n.transfer name p b.cid = .ok (b :: l).eraseDups := by
  obtain ⟨b', l', ht', hunfolds⟩ := Dag.unfolds_tree (ht ▸ hstored)
  rw [ht] at ht' hunfolds
  cases ht'
  rw [transfer_eq hs, hunfolds.preorder_eq (by simp), firsts]
  simp [Except.mapError]

/-- A transfer lists what is below its root in preorder, each block once, exactly if all of that is
stored; otherwise it names the first identifier in preorder that is not. Of a tree it lists the
first of each of the blocks, if no two of them share an identifier or all of them are stored. -/
theorem transfer_in_preorder (hs : n.reach name p = .ok s) :
    (∀ root,
      n.transfer name p root =
        (preorder s [] [root]).mapError (fun c => .failed (.missing p c)) ∧
      ((∃ bs, n.transfer name p root = .ok bs) ↔ s.Whole root) ∧
      ∀ bs, n.transfer name p root = .ok bs → Covers s root bs) ∧
    ∀ fanout leaf depth i, ∃ b l, Dag.tree fanout leaf depth i = b :: l ∧
      ((∀ x ∈ b :: l, ∀ y ∈ b :: l, x.cid = y.cid → x = y) →
        (n.update p (·.extend (b :: l))).transfer name p b.cid = .ok (b :: l).eraseDups) ∧
      ((∀ x ∈ b :: l, s.get? x.cid = some x) →
        n.transfer name p b.cid = .ok (b :: l).eraseDups) := by
  refine ⟨fun root => ⟨transfer_eq hs root, ?_, fun bs hbs => ?_⟩, fun fanout leaf depth i => ?_⟩
  · simp only [transfer_eq_ok_iff hs]
    exact fromRoot_ok_iff
  · exact (fromRoot_covers ((transfer_eq_ok_iff hs).mp hbs)).1
  · obtain ⟨b, l, ht⟩ : ∃ b l, Dag.tree fanout leaf depth i = b :: l := by
      cases depth <;> exact ⟨_, _, rfl⟩
    refine ⟨b, l, ht, fun hinj => ?_, transfer_tree hs ht⟩
    exact transfer_tree (reach_update hs _) ht fun x hx => Store.get?_extend_of_mem hinj hx

/-- Two blocks that link to each other, and a tree of two blocks over two equal leaves each. -/
theorem preorder_shared :
    let ring : List Block := [{ cid := ⟨[1]⟩, data := [7], links := [⟨[2]⟩, ⟨[1]⟩] },
      { cid := ⟨[2]⟩, data := [8], links := [⟨[1]⟩, ⟨[2]⟩] }]
    let s : Store := ({} : Store).extend ring
    let n : Network := { peers := [{ id := ⟨[7]⟩, network := "near", store := s }], joined := 1 }
    let dag := Dag.tree 2 (fun i => [UInt8.ofNat (i / 2)]) 2 0
    n.reach "near" ⟨[7]⟩ = .ok s ∧ n.transfer "near" ⟨[7]⟩ ⟨[1]⟩ = .ok ring ∧
      ∃ b l, dag = b :: l ∧ l.length = 6 ∧ (b :: l).eraseDups.length = 5 ∧
        (n.update ⟨[7]⟩ (·.extend dag)).transfer "near" ⟨[7]⟩ b.cid = .ok (b :: l).eraseDups := by
  intro ring s n dag
  have hs : n.reach "near" ⟨[7]⟩ = .ok s := by decide
  obtain ⟨hroot, htree⟩ := transfer_in_preorder hs
  obtain ⟨b, l, hdag, hheld, -⟩ := htree 2 (fun i => [UInt8.ofNat (i / 2)]) 2 0
  have hinj : ∀ x ∈ dag, ∀ y ∈ dag, x.cid = y.cid → x = y := by decide +kernel
  have hlength : dag.length = 7 ∧ dag.eraseDups.length = 5 := by decide +kernel
  have heq : dag = b :: l := hdag
  rw [heq] at hinj hlength ⊢
  refine ⟨hs, ?_, b, l, rfl, Nat.succ.inj hlength.1, hlength.2, hheld hinj⟩
  rw [(hroot ⟨[1]⟩).1]
  cbv

end Network

end Courier
