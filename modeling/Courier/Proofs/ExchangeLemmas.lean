import Courier.Exchange.Basic
import Courier.Proofs.KeyLemmas

/-!
# Exchanges, walks and fetches

An action makes one of a few things of a fetch (`Goes`). Walks and fetches have
numbers of their own, so that changing one leaves the others as they are.
-/

namespace Courier.Exchange

/-! ## Fetches -/

namespace Fetch

variable {f f' : Fetch} {providers : List ProviderId} {own shared own' shared' : Slots}

def turned (f : Fetch) : List ProviderId → Fetch
  | [] => { f with phase := .spent }
  | p :: others => { f with phase := .asking p others }

def turn (f : Fetch) (e : Error) : Turn :=
  match f.phase with
  | .asking p _ => .asks p
  | .spent => .fails e
  | _ => .waits

def asks (f : Fetch) : List Effect :=
  match f.phase with
  | .asking p _ => [.ask f.ticket p f.cid]
  | _ => []

/-- What an action makes of a fetch that goes on, and of the slots it takes. -/
inductive Goes (f : Fetch) (providers : List ProviderId) (own shared : Slots) :
    Action → Fetch → Slots → Slots → Prop
  | linesUp : f.phase = .fresh → Goes f providers own shared (.advance f.ticket)
      { f with phase := .awaitingOwn } (own.request f.ticket) shared
  | enters {own' : Slots} : f.phase = .awaitingOwn → own.resume? f.ticket = some own' →
      Goes f providers own shared (.advance f.ticket)
        { f with phase := .awaitingShared } own' (shared.request f.ticket)
  | begins {shared' : Slots} : f.phase = .awaitingShared → shared.resume? f.ticket = some shared' →
      Goes f providers own shared (.advance f.ticket) (f.turned providers) own shared'
  | turns {p : ProviderId} {others : List ProviderId} {ended : Option Error}
      {a : Except Error Block} : f.phase = .asking p others → (∀ b, a = .ok b → b.cid ≠ f.cid) →
      Goes f providers own shared (.answer f.ticket ended a) (f.turned others) own shared

theorem turnTo_eq (f : Fetch) (e : Error) (l : List ProviderId) :
    f.turnTo e l = (f.turned l, (f.turned l).turn e) := by
  cases l <;> rfl

@[simp] theorem turned_ticket (f : Fetch) (l : List ProviderId) :
    (f.turned l).ticket = f.ticket := by
  cases l <;> rfl

@[simp] theorem turned_cid (f : Fetch) (l : List ProviderId) : (f.turned l).cid = f.cid := by
  cases l <;> rfl

theorem Goes.ticket {a : Action} (h : f.Goes providers own shared a f' own' shared') :
    f'.ticket = f.ticket := by
  cases h with
  | linesUp => rfl
  | enters => rfl
  | begins => exact f.turned_ticket _
  | turns => exact f.turned_ticket _

theorem Goes.cid {a : Action} (h : f.Goes providers own shared a f' own' shared') :
    f'.cid = f.cid := by
  cases h with
  | linesUp => rfl
  | enters => rfl
  | begins => exact f.turned_cid _
  | turns => exact f.turned_cid _

theorem Goes.phase_ne {a : Action} (h : f.Goes providers own shared a f' own' shared') :
    f'.phase ≠ f.phase := by
  cases h with
  | linesUp hp => rw [hp]; nofun
  | enters hp hr => rw [hp]; nofun
  | begins hp hr => rw [hp]; cases providers <;> nofun
  | @turns p others _ _ hp hne =>
    rw [hp]
    cases others with
    | nil => nofun
    | cons q r =>
      intro he
      injection he with _ he
      exact absurd (congrArg List.length he) (by simp)

theorem advance_goes (providers : List ProviderId) (h : f.need own shared ≠ .others) :
    ∃ f' own' shared' e, f.Goes providers own shared (.advance f.ticket) f' own' shared' ∧
      f.advance providers own shared = (f', own', shared', f'.turn e) := by
  unfold need at h
  cases hp : f.phase with
  | fresh => exact ⟨_, _, _, .cancelled, .linesUp hp, by simp [advance, hp, turn]⟩
  | awaitingOwn =>
    have hm : f.ticket ∈ own.handed := by
      by_contra hm
      simp [hp, hm] at h
    have hr : own.resume? f.ticket = some { own with handed := own.handed.erase f.ticket } :=
      if_pos hm
    exact ⟨_, _, _, .cancelled, .enters hp hr, by simp [advance, hp, hr, turn]⟩
  | awaitingShared =>
    have hm : f.ticket ∈ shared.handed := by
      by_contra hm
      simp [hp, hm] at h
    have hr : shared.resume? f.ticket =
        some { shared with handed := shared.handed.erase f.ticket } := if_pos hm
    exact ⟨_, _, _, .failed (.noBlockCandidate f.cid), .begins hp hr,
      by simp [advance, hp, hr, turnTo_eq]⟩
  | asking p others => simp [hp] at h
  | spent => simp [hp] at h

theorem advance_others (h : f.need own shared = .others) :
    f.advance providers own shared = (f, own, shared, .waits) := by
  unfold need at h
  cases hp : f.phase with
  | fresh => simp [hp] at h
  | awaitingOwn =>
    have hm : f.ticket ∉ own.handed := by
      intro hm
      simp [hp, hm] at h
    simp [advance, hp, Slots.resume?, hm]
  | awaitingShared =>
    have hm : f.ticket ∉ shared.handed := by
      intro hm
      simp [hp, hm] at h
    simp [advance, hp, Slots.resume?, hm]
  | asking p others => simp [advance, hp]
  | spent => simp [advance, hp]

end Fetch

theorem blame_isContext (d : Duration) (e : Error) : (blame d e).isContext = false := by
  unfold blame
  split
  · rfl
  · next h => simpa using h

/-! ## Walks among others -/

/-- The fetches of all walks. -/
def fetches (x : Exchange) : List Fetch := x.walks.flatMap (·.2.fetches)

def others (x : Exchange) (k : Key) : List Fetch :=
  (x.walks.filter (·.1 ≠ k)).flatMap (·.2.fetches)

structure Tidy (x : Exchange) : Prop where
  keys : (x.walks.map (·.1)).Nodup
  tickets : (x.fetches.map (·.ticket)).Nodup

variable {x : Exchange} {k : Key} {w w' : Walk} {t : Ticket} {f f' : Fetch}

theorem mem_of_walk? (h : x.walk? k = some w) : (k, w) ∈ x.walks := by
  obtain ⟨l₁, l₂, hl, -⟩ := List.lookup_eq_some_iff.1 h
  rw [hl]
  exact List.mem_append_right _ List.mem_cons_self

theorem walk?_of_mem (hx : (x.walks.map (·.1)).Nodup) (h : (k, w) ∈ x.walks) :
    x.walk? k = some w := by
  cases hk : x.walk? k with
  | none =>
    have hne := List.lookup_eq_none_iff.1 hk (k, w) h
    simp at hne
  | some w' =>
    have he := List.inj_on_of_nodup_map hx (mem_of_walk? hk) h rfl
    exact congrArg (some ·.2) he

theorem mem_fetches (h : x.walk? k = some w) (hf : f ∈ w.fetches) : f ∈ x.fetches :=
  List.mem_flatMap.2 ⟨_, mem_of_walk? h, hf⟩

theorem walks_perm (hx : (x.walks.map (·.1)).Nodup) (h : x.walk? k = some w) :
    x.walks.Perm ((k, w) :: x.walks.filter (·.1 ≠ k)) :=
  Keyed.perm_filter hx (mem_of_walk? h)

theorem setWalk_perm (w' : Walk) (hx : (x.walks.map (·.1)).Nodup) (h : x.walk? k = some w) :
    (x.setWalk k w').walks.Perm ((k, w') :: x.walks.filter (·.1 ≠ k)) :=
  Keyed.perm_map (fun _ => (k, w')) hx (mem_of_walk? h)

theorem fetches_perm (hx : (x.walks.map (·.1)).Nodup) (h : x.walk? k = some w) :
    x.fetches.Perm (w.fetches ++ x.others k) :=
  (walks_perm hx h).flatMap_right _

theorem fetches_setWalk (w' : Walk) (hx : (x.walks.map (·.1)).Nodup) (h : x.walk? k = some w) :
    (x.setWalk k w').fetches.Perm (w'.fetches ++ x.others k) :=
  (setWalk_perm w' hx h).flatMap_right _

theorem mem_setWalk (hx : (x.walks.map (·.1)).Nodup) (h : x.walk? k = some w)
    {e : Key × Walk} (he : e ∈ (x.setWalk k w').walks) : e = (k, w') ∨ e ∈ x.walks := by
  rcases List.mem_cons.1 ((setWalk_perm w' hx h).subset he) with he | he
  · exact .inl he
  · exact .inr (List.filter_sublist.subset he)

theorem mem_of_others (hx : (x.walks.map (·.1)).Nodup) (h : x.walk? k = some w)
    (hf : f ∈ x.others k) : f ∈ x.fetches :=
  (fetches_perm hx h).symm.subset (List.mem_append_right _ hf)

theorem mem_fetches_setWalk (hx : (x.walks.map (·.1)).Nodup) (h : x.walk? k = some w)
    (hf : f ∈ (x.setWalk k w').fetches) : f ∈ w'.fetches ∨ f ∈ x.fetches := by
  rcases List.mem_append.1 ((fetches_setWalk w' hx h).subset hf) with hf | hf
  · exact .inl hf
  · exact .inr (mem_of_others hx h hf)

theorem Tidy.walk_tickets (hx : x.Tidy) (h : x.walk? k = some w) :
    (w.fetches.map (·.ticket)).Nodup := by
  have hp := ((fetches_perm hx.keys h).map (·.ticket)).nodup_iff.1 hx.tickets
  rw [List.map_append] at hp
  exact (List.nodup_append.1 hp).1

theorem Walk.mem_of_fetch? (h : w.fetch? t = some f) : f ∈ w.fetches ∧ f.ticket = t :=
  ⟨List.mem_of_find?_eq_some h, by simpa using List.find?_some h⟩

theorem walk?_of_owner? (hx : (x.walks.map (·.1)).Nodup) (h : x.owner? t = some (k, w)) :
    x.walk? k = some w :=
  walk?_of_mem hx (List.mem_of_find?_eq_some h)

theorem owner?_of_mem (hx : x.Tidy) (h : x.walk? k = some w) (hf : f ∈ w.fetches) :
    x.owner? f.ticket = some (k, w) ∧ w.fetch? f.ticket = some f := by
  have hw : w.fetch? f.ticket = some f := Keyed.find?_of_mem (hx.walk_tickets h) hf
  refine ⟨?_, hw⟩
  cases ho : x.owner? f.ticket with
  | none =>
    have hn := List.find?_eq_none.1 ho (k, w) (mem_of_walk? h)
    simp [hw] at hn
  | some e =>
    obtain ⟨k', w'⟩ := e
    have hk' := walk?_of_owner? hx.keys ho
    by_cases hk : k' = k
    · subst hk
      rw [h] at hk'
      cases hk'
      rfl
    · -- the ticket would be in use in two walks
      exfalso
      have hs : (w'.fetch? f.ticket).isSome := by simpa using List.find?_some ho
      obtain ⟨g, hg⟩ := Option.isSome_iff_exists.1 hs
      obtain ⟨hg, hgt⟩ := Walk.mem_of_fetch? hg
      have hm : f ∈ x.others k' := List.mem_flatMap.2
        ⟨(k, w), List.mem_filter.2 ⟨mem_of_walk? h, by simpa using Ne.symm hk⟩, hf⟩
      have hp := ((fetches_perm hx.keys hk').map (·.ticket)).nodup_iff.1 hx.tickets
      rw [List.map_append, List.nodup_append] at hp
      exact hp.2.2 _ (List.mem_map_of_mem hg) _ (List.mem_map_of_mem hm) hgt

theorem Walk.setFetch_perm (hw : (w.fetches.map (·.ticket)).Nodup) (hf : f ∈ w.fetches)
    (ht : f'.ticket = f.ticket) :
    (w.setFetch f').fetches.Perm (f' :: w.fetches.filter (·.ticket ≠ f.ticket)) := by
  unfold Walk.setFetch
  rw [ht]
  exact Keyed.perm_map (fun _ => f') hw hf

theorem Walk.fetches_perm (hw : (w.fetches.map (·.ticket)).Nodup) (hf : f ∈ w.fetches) :
    w.fetches.Perm (f :: w.fetches.filter (·.ticket ≠ f.ticket)) :=
  Keyed.perm_filter hw hf

/-! ## Fetches that begin -/

/-- The fetches a walk begins under tickets from `t` on. -/
def spawned (t : Ticket) (cids : List Cid) : List Fetch :=
  cids.mapIdx fun i c => { ticket := t + i, cid := c }

theorem mem_spawned {t : Ticket} {cids : List Cid} (hf : f ∈ spawned t cids) :
    f.phase = .fresh ∧ t ≤ f.ticket ∧ f.ticket < t + cids.length := by
  obtain ⟨i, hi, rfl⟩ := List.mem_mapIdx.1 hf
  exact ⟨rfl, Nat.le_add_right t i, Nat.add_lt_add_left hi t⟩

theorem spawned_tickets (t : Ticket) (cids : List Cid) :
    ((spawned t cids).map (·.ticket)).Nodup := by
  have he : (spawned t cids).map (·.ticket) = (List.range cids.length).map (t + ·) := by
    apply List.ext_getElem
    · simp [spawned]
    · intro i hi hi'
      simp [spawned]
  rw [he]
  exact List.nodup_range.map fun i j hij => Nat.add_left_cancel hij

theorem start_fetches (x : Exchange) (root : Cid) (providers : List ProviderId) :
    (x.start root providers).2.1.fetches = x.fetches ++ spawned (x.fresh + 1) [root] := by
  simp [start, fetches, Walk.spawn, spawned]

end Courier.Exchange
