import Courier.Network.Basic

/-!
# What a walk through a store lists

A depth-first walk lists what can be reached through the links of stored blocks,
each block once and the root first. It does so exactly if all of that is stored;
otherwise it names something reached that is not.
-/

namespace Courier

/-- What can be reached through the links of stored blocks. -/
inductive Store.Reaches (s : Store) (root : Cid) : Cid → Prop
  | root : Reaches s root root
  | link {c d : Cid} {b : Block} : Reaches s root c → s.get? c = some b → d ∈ b.links →
      Reaches s root d

/-- Everything that can be reached is stored. -/
def Store.Whole (s : Store) (root : Cid) : Prop := ∀ c, s.Reaches root c → (s.get? c).isSome

namespace Traversal

variable {s : Store} {root c : Cid} {seen stack : List Cid} {bs : List Block}

theorem map_cons_ok {r : Except Cid (List Block)} {b : Block} (h : r.map (b :: ·) = .ok bs) :
    ∃ as, r = .ok as ∧ b :: as = bs := by
  cases r with
  | error c => cases h
  | ok as => exact ⟨as, rfl, Except.ok.inj h⟩

/-- What a walk lists from a stack, with some identifiers behind it. -/
structure Lists (s : Store) (seen stack : List Cid) (bs : List Block) : Prop where
  once : (bs.map (·.cid)).Nodup
  fresh : ∀ b ∈ bs, b.cid ∉ seen
  stored : ∀ b ∈ bs, s.get? b.cid = some b
  stacked : ∀ c ∈ stack, c ∈ seen ∨ c ∈ bs.map (·.cid)
  closed : ∀ b ∈ bs, ∀ c ∈ b.links, c ∈ seen ∨ c ∈ bs.map (·.cid)

theorem Lists.skip (h : Lists s seen stack bs) (hc : c ∈ seen) : Lists s seen (c :: stack) bs where
  once := h.once
  fresh := h.fresh
  stored := h.stored
  stacked := by
    rw [List.forall_mem_cons]
    exact ⟨.inl hc, h.stacked⟩
  closed := h.closed

theorem Lists.visit {b : Block} (hb : s.get? c = some b) (hc : c ∉ seen)
    (h : Lists s (c :: seen) (b.links ++ stack) bs) : Lists s seen (c :: stack) (b :: bs) := by
  obtain rfl := (Store.mem_of_get? hb).2
  -- the block itself is no longer behind the walk but the first that it lists
  have known {d : Cid} (hd : d ∈ b.cid :: seen ∨ d ∈ bs.map (·.cid)) :
      d ∈ seen ∨ d ∈ (b :: bs).map (·.cid) := by
    rcases hd with hd | hd
    · rcases List.mem_cons.mp hd with rfl | hd
      · exact .inr List.mem_cons_self
      · exact .inl hd
    · exact .inr (List.mem_cons_of_mem _ hd)
  refine ⟨?_, ?_, ?_, ?_, ?_⟩
  · rw [List.map_cons, List.nodup_cons]
    refine ⟨fun hm => ?_, h.once⟩
    obtain ⟨a, ha, hab⟩ := List.mem_map.mp hm
    exact h.fresh a ha (hab ▸ List.mem_cons_self)
  · rw [List.forall_mem_cons]
    exact ⟨hc, fun a ha hs => h.fresh a ha (List.mem_cons_of_mem _ hs)⟩
  · rw [List.forall_mem_cons]
    exact ⟨hb, h.stored⟩
  · rw [List.forall_mem_cons]
    exact ⟨.inr List.mem_cons_self, fun d hd => known (h.stacked d (List.mem_append_right _ hd))⟩
  · rw [List.forall_mem_cons]
    exact ⟨fun d hd => known (h.stacked d (List.mem_append_left _ hd)),
      fun a ha d hd => known (h.closed a ha d hd)⟩

theorem walk_lists (h : walk s seen stack = .ok bs) : Lists s seen stack bs := by
  fun_induction walk s seen stack generalizing bs with
  | case1 =>
    cases h
    exact ⟨List.nodup_nil, by simp, by simp, by simp, by simp⟩
  | case2 seen c stack hc ih => exact (ih h).skip hc
  | case3 => cases h
  | case4 seen c stack hc b hb ih =>
    obtain ⟨as, has, rfl⟩ := map_cons_ok h
    exact (ih has).visit hb hc

/-- A walk stays within reach of where its stack is. -/
theorem walk_reaches (hs : ∀ c ∈ stack, s.Reaches root c) :
    (∀ bs, walk s seen stack = .ok bs → ∀ b ∈ bs, s.Reaches root b.cid) ∧
      ∀ c, walk s seen stack = .error c → s.Reaches root c ∧ s.get? c = none := by
  fun_induction walk s seen stack with
  | case1 => simp
  | case2 seen c stack hc ih => exact ih (List.forall_mem_cons.mp hs).2
  | case3 seen c stack hc hn =>
    refine ⟨by simp, fun d hd => ?_⟩
    cases hd
    exact ⟨(List.forall_mem_cons.mp hs).1, hn⟩
  | case4 seen c stack hc b hb ih =>
    obtain ⟨hroot, hs⟩ := List.forall_mem_cons.mp hs
    have hlinks : ∀ d ∈ b.links ++ stack, s.Reaches root d := by
      intro d hd
      rcases List.mem_append.mp hd with hd | hd
      · exact .link hroot hb hd
      · exact hs d hd
    obtain ⟨hok, herror⟩ := ih hlinks
    refine ⟨fun bs h => ?_, fun d h => ?_⟩
    · obtain ⟨as, has, rfl⟩ := map_cons_ok h
      rw [List.forall_mem_cons, (Store.mem_of_get? hb).2]
      exact ⟨hroot, hok as has⟩
    · cases hw : walk s (c :: seen) (b.links ++ stack) with
      | ok as => rw [hw] at h; cases h
      | error d' => rw [hw] at h; cases h; exact herror d hw

theorem fromRoot_reaches : (∀ bs, fromRoot s root = .ok bs → ∀ b ∈ bs, s.Reaches root b.cid) ∧
    ∀ c, fromRoot s root = .error c → s.Reaches root c ∧ s.get? c = none := by
  refine walk_reaches fun c hc => ?_
  rw [List.mem_singleton.mp hc]
  exact .root

/-- What is listed from a root. -/
structure Covers (s : Store) (root : Cid) (bs : List Block) : Prop where
  once : (bs.map (·.cid)).Nodup
  mem : ∀ b, b ∈ bs ↔ s.Reaches root b.cid ∧ s.get? b.cid = some b
  first : ∃ b, bs.head? = some b ∧ b.cid = root

theorem fromRoot_covers (h : fromRoot s root = .ok bs) : Covers s root bs ∧ s.Whole root := by
  have hl := walk_lists h
  have hreach := fromRoot_reaches.1 bs h
  have hall : ∀ c, s.Reaches root c → c ∈ bs.map (·.cid) := by
    intro c hc
    -- the root is on the stack, and with a block its links are listed
    induction hc with
    | root => exact (hl.stacked root List.mem_cons_self).resolve_left List.not_mem_nil
    | link hr hb hd ih =>
      obtain ⟨a, ha, rfl⟩ := List.mem_map.mp ih
      have hab := hl.stored a ha
      rw [hb] at hab
      cases hab
      exact (hl.closed _ ha _ hd).resolve_left List.not_mem_nil
  refine ⟨⟨hl.once, fun b => ⟨fun hb => ⟨hreach b hb, hl.stored b hb⟩, fun ⟨hr, hb⟩ => ?_⟩, ?_⟩,
    fun c hc => ?_⟩
  · obtain ⟨a, ha, hab⟩ := List.mem_map.mp (hall _ hr)
    have := hl.stored a ha
    rw [hab, hb] at this
    cases this
    exact ha
  · unfold fromRoot walk at h
    rw [if_neg List.not_mem_nil] at h
    split at h
    · cases h
    · next b hb =>
      obtain ⟨as, -, rfl⟩ := map_cons_ok h
      exact ⟨b, rfl, (Store.mem_of_get? hb).2⟩
  · obtain ⟨a, ha, rfl⟩ := List.mem_map.mp (hall c hc)
    rw [hl.stored a ha]
    rfl

theorem Covers.mem_cids (h : Covers s root bs) (hw : s.Whole root) :
    c ∈ bs.map (·.cid) ↔ s.Reaches root c := by
  constructor
  · intro hc
    obtain ⟨b, hb, rfl⟩ := List.mem_map.mp hc
    exact ((h.mem b).mp hb).1
  · intro hc
    obtain ⟨b, hb⟩ := Option.isSome_iff_exists.mp (hw c hc)
    obtain rfl := (Store.mem_of_get? hb).2
    exact List.mem_map_of_mem ((h.mem b).mpr ⟨hc, hb⟩)

/-- A walk from a root lists all that can be reached, exactly if it is stored. -/
theorem fromRoot_ok_iff : (∃ bs, fromRoot s root = .ok bs) ↔ s.Whole root := by
  constructor
  · rintro ⟨bs, h⟩
    exact (fromRoot_covers h).2
  · intro hw
    cases h : fromRoot s root with
    | ok bs => exact ⟨bs, rfl⟩
    | error c =>
      obtain ⟨hr, hn⟩ := fromRoot_reaches.2 c h
      have := hw c hr
      rw [hn] at this
      cases this

end Traversal

theorem Network.transfer_eq_ok_iff {n : Network} {name : String} {p : ProviderId} {s : Store} {root : Cid}
    {bs : List Block} (hs : n.reach name p = .ok s) :
    n.transfer name p root = .ok bs ↔ Traversal.fromRoot s root = .ok bs := by
  simp only [transfer, hs, bind, Except.bind]
  cases Traversal.fromRoot s root with
  | error c => exact ⟨nofun, nofun⟩
  | ok as => exact ⟨fun h => congrArg Except.ok (Except.ok.inj h), fun h => congrArg Except.ok (Except.ok.inj h)⟩

end Courier
