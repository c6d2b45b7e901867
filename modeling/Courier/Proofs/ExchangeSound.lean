import Courier.Proofs.LevelSound
import Courier.Proofs.StepLemmas

/-!
# Exchanges keep within their slots and do not get stuck

A request in flight holds a slot of its walk and one that all walks share. The
slots of both levels are accounted for by the fetches that are there, whatever
is done with the exchange and in which order (`Kept`), so a walk that is over
holds none. While any walk is under way a request is in flight, a block is
being written or a fetch can take a step.
-/

namespace Courier.Exchange

open Level

/-! ## What every exchange keeps -/

/-- No number is in use twice, and at both levels all slots are accounted for. -/
structure Kept (n : Nat) (x : Exchange) : Prop extends x.Tidy where
  keyed : ∀ e ∈ x.walks, e.1 < x.fresh
  ticketed : ∀ f ∈ x.fetches, f.ticket < x.fresh
  shared : Level.shared.Accounts n x.fetches x.shared
  own : ∀ e ∈ x.walks, Level.own.Accounts x.width e.2.fetches e.2.own

variable {x : Exchange} {k : Key} {w w' : Walk} {f f' : Fetch} {o s : Slots} {a : Action} {n : Nat}

theorem Kept.raise (h : x.Kept n) {t : Nat} (ht : x.fresh ≤ t) : Kept n { x with fresh := t } :=
  ⟨⟨h.keys, h.tickets⟩, fun e he => Nat.lt_of_lt_of_le (h.keyed e he) ht,
    fun f hf => Nat.lt_of_lt_of_le (h.ticketed f hf) ht, h.shared, h.own⟩

theorem Kept.setWalk (h : x.Kept n) (hk : x.walk? k = some w)
    (ht : ((w'.fetches ++ x.others k).map (·.ticket)).Nodup)
    (hb : ∀ f ∈ w'.fetches, f.ticket < x.fresh)
    (hs : Level.shared.Accounts n (w'.fetches ++ x.others k) s)
    (ho : Level.own.Accounts x.width w'.fetches w'.own) :
    Kept n (Exchange.setWalk { x with shared := s } k w') := by
  have hw := setWalk_perm w' h.keys hk
  have hf := fetches_setWalk w' h.keys hk
  refine ⟨⟨(hw.map (·.1)).nodup_iff.2 (((walks_perm h.keys hk).map (·.1)).nodup_iff.1 h.keys),
    (hf.map (·.ticket)).nodup_iff.2 ht⟩, ?_, ?_, hs.perm hf.symm, ?_⟩
  · intro e he
    rcases mem_setWalk h.keys hk he with rfl | he
    · exact h.keyed (k, w) (mem_of_walk? hk)
    · exact h.keyed e he
  · intro f hf'
    rcases mem_fetches_setWalk h.keys hk hf' with hf' | hf'
    · exact hb f hf'
    · exact h.ticketed f hf'
  · intro e he
    rcases mem_setWalk h.keys hk he with rfl | he
    · exact ho
    · exact h.own e he

theorem Kept.drop (h : x.Kept n) (hk : x.walk? k = some w) : Kept n (x.drop k).1 := by
  rw [drop_eq hk]
  have hf := fetches_perm h.keys hk
  have hs : (x.walks.filter (·.1 ≠ k)).Sublist x.walks := List.filter_sublist
  have hn := (hf.map (·.ticket)).nodup_iff.1 h.tickets
  rw [List.map_append] at hn
  refine ⟨⟨h.keys.sublist (hs.map _), (List.nodup_append.1 hn).2.1⟩, ?_, ?_, ?_, ?_⟩
  · exact fun e he => h.keyed e (hs.subset he)
  · exact fun f hf' => h.ticketed f (hf.symm.subset (List.mem_append_right _ hf'))
  · exact Walk.accounts_leave w (h.shared.perm hf)
  · exact fun e he => h.own e (hs.subset he)

theorem Kept.own_of_walk (h : x.Kept n) (hk : x.walk? k = some w) :
    Level.own.Accounts x.width w.fetches w.own :=
  h.own (k, w) (mem_of_walk? hk)

theorem Kept.goes (h : x.Kept n) (hk : x.walk? k = some w) (hf : f ∈ w.fetches)
    (hg : f.Goes w.providers w.own x.shared a f' o s) :
    Kept n ({ x with shared := s }.setWalk k ({ w with own := o }.setFetch f')) := by
  have ht := h.walk_tickets hk
  have hw := Walk.fetches_perm ht hf
  have hw' := Walk.setFetch_perm (w := { w with own := o }) ht hf hg.ticket
  have hx := (fetches_perm h.keys hk).trans (hw.append_right (x.others k))
  have hx' := hw'.append_right (x.others k)
  refine h.setWalk hk ?_ ?_ ?_ ?_
  · -- under the same tickets as before
    have hn := (hx.map (·.ticket)).nodup_iff.1 h.tickets
    refine (hx'.map (·.ticket)).nodup_iff.2 ?_
    rw [List.cons_append, List.map_cons, hg.ticket]
    exact hn
  · intro g hg'
    rcases List.mem_cons.1 (hw'.subset hg') with rfl | hg'
    · rw [hg.ticket]
      exact h.ticketed f (mem_fetches hk hf)
    · exact h.ticketed g (mem_fetches hk (List.filter_sublist.subset hg'))
  · exact Accounts.perm (hg.shared (h.shared.perm hx)) hx'.symm
  · exact Accounts.perm (hg.own ((h.own_of_walk hk).perm hw)) hw'.symm

theorem Kept.delivers (h : x.Kept n) (hk : x.walk? k = some w) (hf : f ∈ w.fetches)
    {p : ProviderId} {others : List ProviderId} (hp : f.phase = .asking p others) (b : Block) :
    Kept n ({ x with shared := x.shared.release.1 }.setWalk k
      (({ w with own := w.own.release.1 }.dropFetch f.ticket).take b p)) := by
  have hw := Walk.fetches_perm (h.walk_tickets hk) hf
  have hx := (fetches_perm h.keys hk).trans (hw.append_right (x.others k))
  refine h.setWalk hk ?_ ?_ ?_ ?_
  · have hn := (hx.map (·.ticket)).nodup_iff.1 h.tickets
    exact (List.nodup_cons.1 hn).2
  · exact fun g hg => h.ticketed g (mem_fetches hk (List.filter_sublist.subset hg))
  · exact Slots.Lends.release ((accounts_holding (by rw [hp]; rfl)).1 (h.shared.perm hx))
  · exact Slots.Lends.release
      ((accounts_holding (by rw [hp]; rfl)).1 ((h.own_of_walk hk).perm hw))

theorem Kept.spawns (h : x.Kept n) (hk : x.walk? k = some w) (v : Option (List Cid))
    (cids : List Cid) :
    Kept n { x.setWalk k ({ w with writing := v }.spawn x.fresh cids) with
      fresh := x.fresh + cids.length } := by
  have hx := fetches_perm h.keys hk
  have hnew : ∀ f ∈ spawned x.fresh cids, f.phase = .fresh := fun f hf => (mem_spawned hf).1
  have hmove : ((w.fetches ++ spawned x.fresh cids) ++ x.others k).Perm
      (spawned x.fresh cids ++ (w.fetches ++ x.others k)) := by
    rw [← List.append_assoc]
    exact List.perm_append_comm.append_right _
  refine (h.raise (Nat.le_add_right _ cids.length)).setWalk hk ?_ ?_ ?_ ?_
  · refine (hmove.map (·.ticket)).nodup_iff.2 ?_
    rw [List.map_append, List.nodup_append]
    refine ⟨spawned_tickets _ _, (hx.map (·.ticket)).nodup_iff.1 h.tickets, ?_⟩
    intro t ht t' ht' he
    obtain ⟨f, hf, rfl⟩ := List.mem_map.1 ht
    obtain ⟨g, hg, rfl⟩ := List.mem_map.1 ht'
    have hlt := h.ticketed g (hx.symm.subset hg)
    have hle : x.fresh ≤ g.ticket := he ▸ (mem_spawned hf).2.1
    exact absurd hlt (Nat.not_lt.2 hle)
  · intro f hf
    rcases List.mem_append.1 hf with hf | hf
    · exact Nat.lt_of_lt_of_le (h.ticketed f (mem_fetches hk hf)) (Nat.le_add_right _ _)
    · exact (mem_spawned hf).2.2
  · exact Accounts.perm (accounts_fresh hnew rfl rfl (h.shared.perm hx)) hmove.symm
  · have hp : (spawned x.fresh cids ++ w.fetches).Perm (w.fetches ++ spawned x.fresh cids) :=
      List.perm_append_comm
    have ho := accounts_fresh hnew rfl rfl (h.own_of_walk hk)
    exact ho.perm hp

theorem Kept.starts (h : x.Kept n) (root : Cid) (providers : List ProviderId) :
    Kept n (x.start root providers).2.1 := by
  have hf := start_fetches x root providers
  have hnew : ∀ f ∈ spawned (x.fresh + 1) [root], f.phase = .fresh :=
    fun f hf => (mem_spawned hf).1
  refine ⟨⟨?_, ?_⟩, ?_, ?_, ?_, ?_⟩
  · simp only [start, List.map_append, List.map_cons, List.map_nil]
    refine List.nodup_append.2 ⟨h.keys, List.nodup_singleton _, ?_⟩
    intro k hk k' hk' he
    obtain ⟨e, hek, rfl⟩ := List.mem_map.1 hk
    rw [List.mem_singleton.1 hk'] at he
    exact Nat.ne_of_lt (h.keyed e hek) he
  · rw [hf, List.map_append]
    refine List.nodup_append.2 ⟨h.tickets, spawned_tickets _ _, ?_⟩
    intro t ht t' ht' he
    obtain ⟨g, hg, rfl⟩ := List.mem_map.1 ht
    obtain ⟨f, hf', rfl⟩ := List.mem_map.1 ht'
    have hlt := h.ticketed g hg
    have hle : x.fresh + 1 ≤ g.ticket := he ▸ (mem_spawned hf').2.1
    exact absurd (Nat.lt_of_succ_le hle) (Nat.lt_asymm hlt)
  · intro e he
    rcases List.mem_append.1 he with he | he
    · exact Nat.lt_of_lt_of_le (h.keyed e he) (Nat.le_add_right _ 2)
    · rw [List.mem_singleton.1 he]
      exact Nat.lt_add_of_pos_right (Nat.zero_lt_two)
  · intro f hf'
    rw [hf] at hf'
    rcases List.mem_append.1 hf' with hf' | hf'
    · exact Nat.lt_of_lt_of_le (h.ticketed f hf') (Nat.le_add_right _ 2)
    · exact (mem_spawned hf').2.2
  · rw [hf]
    have hs := accounts_fresh hnew rfl rfl h.shared
    exact hs.perm List.perm_append_comm
  · intro e he
    rcases List.mem_append.1 he with he | he
    · exact h.own e he
    · rw [List.mem_singleton.1 he]
      have ho := accounts_fresh (v := Level.own) hnew rfl rfl (accounts_nil x.width)
      rw [List.append_nil] at ho
      exact ho

/-! ## Whoever waits can be served -/

/-- No fetch is left with nobody to ask, and every walk writes a block or fetches one. -/
structure Sound (n : Nat) (x : Exchange) : Prop extends x.Kept n where
  unspent : ∀ f ∈ x.fetches, f.phase ≠ .spent
  busy : ∀ e ∈ x.walks, e.2.writing.isSome ∨ e.2.fetches ≠ []

theorem Sound.setWalk (h : x.Sound n) (hk : x.walk? k = some w)
    (hy : Kept n (Exchange.setWalk { x with shared := s } k w'))
    (hf : ∀ f ∈ w'.fetches, f.phase ≠ .spent) (hb : w'.writing.isSome ∨ w'.fetches ≠ []) :
    Sound n (Exchange.setWalk { x with shared := s } k w') := by
  refine ⟨hy, ?_, ?_⟩
  · intro f hf'
    rcases mem_fetches_setWalk h.keys hk hf' with hf' | hf'
    · exact hf f hf'
    · exact h.unspent f hf'
  · intro e he
    rcases mem_setWalk h.keys hk he with rfl | he
    · exact hb
    · exact h.busy e he

theorem Sound.of_sublist {y : Exchange} (h : x.Sound n) (hy : y.Kept n)
    (hw : y.walks.Sublist x.walks) : y.Sound n := by
  refine ⟨hy, ?_, fun e he => h.busy e (hw.subset he)⟩
  intro f hf
  obtain ⟨e, he, hf⟩ := List.mem_flatMap.1 hf
  exact h.unspent f (List.mem_flatMap.2 ⟨e, hw.subset he, hf⟩)

theorem Sound.drop (h : x.Sound n) (hk : x.walk? k = some w) : Sound n (x.drop k).1 :=
  h.of_sublist (h.toKept.drop hk) (drop_sublist x k)

theorem Sound.starts (h : x.Sound n) (root : Cid) (providers : List ProviderId) :
    Sound n (x.start root providers).2.1 := by
  refine ⟨h.toKept.starts root providers, ?_, ?_⟩
  · intro f hf
    rw [start_fetches] at hf
    rcases List.mem_append.1 hf with hf | hf
    · exact h.unspent f hf
    · rw [(mem_spawned hf).1]
      nofun
  · intro e he
    rcases List.mem_append.1 he with he | he
    · exact h.busy e he
    · rw [List.mem_singleton.1 he]
      exact .inr (by simp [Walk.spawn])

/-- A walk whose fetch failed goes with all it has; the others are as they were. -/
theorem Sound.fails (h : x.Sound n) (hk : x.walk? k = some w)
    (hy : Kept n (Exchange.setWalk { x with shared := s } k w')) :
    Sound n ((Exchange.setWalk { x with shared := s } k w').drop k).1 := by
  have hk' := walk?_setWalk (x := { x with shared := s }) w' h.keys hk
  refine h.of_sublist (hy.drop hk') ?_
  rw [drop_eq hk', filter_setWalk]
  exact List.filter_sublist

theorem Sound.step_of {y : Exchange} {es : List Effect} (h : x.Sound n) (hs : x.Step a y es) :
    y.Sound n := by
  cases hs with
  | starts => exact h.starts _ _
  | @goes k w f f' o s _ hk hf hw hg hp =>
    have ht := h.walk_tickets hk
    have hset := Walk.setFetch_perm (w := { w with own := o }) ht hf hg.ticket
    refine h.setWalk hk (h.toKept.goes hk hf hg) ?_ (.inr ?_)
    · intro g hg'
      rcases List.mem_cons.1 (hset.subset hg') with rfl | hg'
      · exact hp
      · exact h.unspent g (mem_fetches hk (List.filter_sublist.subset hg'))
    · exact List.ne_nil_of_mem (hset.symm.subset List.mem_cons_self)
  | fails hk hf hw hg hp => exact h.fails hk (h.toKept.goes hk hf hg)
  | halts hk hf hw hp => exact h.drop hk
  | delivers hk hf hw hp hb hes =>
    refine h.setWalk hk (h.toKept.delivers hk hf hp _) ?_ (.inl rfl)
    exact fun g hg => h.unspent g (mem_fetches hk (List.filter_sublist.subset hg))
  | @spawns k w links _ hk hw hne hes =>
    have hy := h.toKept.spawns hk none links
    refine ⟨hy, ?_, ?_⟩
    · intro f hf
      rcases mem_fetches_setWalk h.keys hk hf with hf | hf
      · rcases List.mem_append.1 hf with hf | hf
        · exact h.unspent f (mem_fetches hk hf)
        · rw [(mem_spawned hf).1]
          nofun
      · exact h.unspent f hf
    · intro e he
      rcases mem_setWalk h.keys hk he with rfl | he
      · refine .inr fun hn => ?_
        obtain ⟨hn, hl⟩ := List.append_eq_nil_iff.1 hn
        exact hne.elim (· (List.mapIdx_eq_nil_iff.1 hl)) (· hn)
      · exact h.busy e he
  | completes hk hw hf => exact h.drop hk
  | refuses hk hw => exact h.drop hk
  | drops hk => exact h.drop hk

theorem Sound.step (h : x.Sound n) (a : Action) : (x.step a).1.Sound n := by
  by_cases ha : x.Heeds a
  · exact h.step_of (step_heeds h.toTidy ha)
  · rw [step_of_not_heeds h.toTidy ha]
    exact h

theorem Sound.walk_unspent (h : x.Sound n) (hk : x.walk? k = some w) :
    ∀ f ∈ w.fetches, f.phase ≠ .spent :=
  fun f hf => h.unspent f (mem_fetches hk hf)

/-! ## Nobody is stuck -/

/-- A fetch that has what its next step takes does take one. -/
theorem Step.advance_ne (hx : x.Tidy) {t : Ticket} {y : Exchange} {es : List Effect}
    (h : x.Step (.advance t) y es) : y ≠ x := by
  cases h with
  | @goes k w f f' o s _ hk hf hw hg hp =>
    intro he
    have hk' := walk?_setWalk (x := { x with shared := s }) ({ w with own := o }.setFetch f')
      hx.keys hk
    have hn := hx.walk_tickets hk
    have hm := (Walk.setFetch_perm (w := { w with own := o }) hn hf hg.ticket).symm.subset
      List.mem_cons_self
    rw [he, hk, Option.some.injEq] at hk'
    rw [← hk'] at hm
    have hff := List.inj_on_of_nodup_map hn hm hf hg.ticket
    exact hg.phase_ne (by rw [hff])
  | @fails k w f f' o s _ _ hk hf hw hg hp =>
    intro he
    have hk' := walk?_drop (Exchange.setWalk { x with shared := s } k
      ({ w with own := o }.setFetch f')) k
    unfold finish at he
    rw [he, hk] at hk'
    cases hk'

/-- While nobody asks and nothing is written some fetch has what its next step takes. -/
theorem Sound.can_advance (h : x.Sound n) (hn : n ≠ 0) (hm : x.width ≠ 0) (hx : x.walks ≠ [])
    (hw : ∀ e ∈ x.walks, e.2.writing = none) (ha : ∀ f ∈ x.fetches, f.isAsking = false) :
    ∃ t, x.Heeds (.advance t) := by
  have idle : ∀ f ∈ x.fetches, Level.shared.holds f.phase = false := by
    intro f hf
    have hs := h.unspent f hf
    have ha := ha f hf
    unfold Fetch.isAsking at ha
    cases hp : f.phase with
    | spent => exact absurd hp hs
    | asking p others => simp [hp] at ha
    | _ => rfl
  have heeds {k : Key} {w : Walk} {f : Fetch} (hk : x.walk? k = some w) (hf : f ∈ w.fetches)
      (hn : f.need w.own x.shared ≠ .others) : x.Heeds (.advance f.ticket) :=
    ⟨k, w, f, hk, hf, rfl, hw (k, w) (mem_of_walk? hk), hn⟩
  have walk {f : Fetch} (hf : f ∈ x.fetches) : ∃ k w, x.walk? k = some w ∧ f ∈ w.fetches := by
    obtain ⟨⟨k, w⟩, he, hf⟩ := List.mem_flatMap.1 hf
    exact ⟨k, w, walk?_of_mem h.keys he, hf⟩
  by_cases hs : ∃ f ∈ x.fetches, f.phase = .awaitingShared
  · -- nobody holds a shared slot, so one was handed to somebody in line
    obtain ⟨f, hf, hp⟩ := hs
    obtain ⟨g, hg, hl, hh⟩ := h.shared.exists_handed hn idle hf (by rw [hp]; rfl)
    obtain ⟨k, w, hk, hg⟩ := walk hg
    refine ⟨g.ticket, heeds hk hg ?_⟩
    unfold Fetch.need
    cases hp : g.phase with
    | awaitingShared => simp [hh]
    | _ => simp [Level.shared, hp] at hl
  · obtain ⟨⟨k, w⟩, he⟩ := List.exists_mem_of_ne_nil _ hx
    have hk := walk?_of_mem h.keys he
    have hquiet : w.writing = none := hw _ he
    have hne : w.fetches ≠ [] := (h.busy _ he).resolve_left (by simp [hquiet])
    by_cases hf : ∃ f ∈ w.fetches, f.phase = .fresh
    · obtain ⟨f, hf, hp⟩ := hf
      refine ⟨f.ticket, heeds hk hf ?_⟩
      simp [Fetch.need, hp]
    · -- all fetches of the walk are in line for its slots
      have lines : ∀ f ∈ w.fetches, f.phase = .awaitingOwn := by
        intro f hf'
        have hi := idle f (mem_fetches hk hf')
        cases hp : f.phase with
        | fresh => exact absurd ⟨f, hf', hp⟩ hf
        | awaitingOwn => rfl
        | awaitingShared => exact absurd ⟨f, mem_fetches hk hf', hp⟩ hs
        | _ => simp [Level.shared, hp] at hi
      obtain ⟨f, hf⟩ := List.exists_mem_of_ne_nil _ hne
      obtain ⟨g, hg, -, hh⟩ := (h.own_of_walk hk).exists_handed hm
        (fun f hf => by rw [lines f hf]; rfl) hf (by rw [lines f hf]; rfl)
      refine ⟨g.ticket, heeds hk hg ?_⟩
      simp [Fetch.need, lines g hg, hh]

/-- While walks are there a block is written, a request is in flight or a fetch can go on. -/
theorem Sound.under_way (h : x.Sound n) (hn : n ≠ 0) (hm : x.width ≠ 0) (hx : x.walks ≠ []) :
    (∃ k w links, x.walk? k = some w ∧ w.writing = some links) ∨
    (∃ k w f, x.walk? k = some w ∧ w.writing = none ∧ f ∈ w.fetches ∧ f.isAsking = true) ∨
    ∃ t, x.Heeds (.advance t) := by
  by_cases hw : ∃ e ∈ x.walks, e.2.writing.isSome
  · obtain ⟨⟨k, w⟩, he, hs⟩ := hw
    obtain ⟨links, hl⟩ := Option.isSome_iff_exists.1 hs
    exact .inl ⟨k, w, links, walk?_of_mem h.keys he, hl⟩
  have quiet : ∀ e ∈ x.walks, e.2.writing = none := by
    intro e he
    rw [← Option.not_isSome_iff_eq_none]
    exact fun hs => hw ⟨e, he, hs⟩
  by_cases ha : ∃ f ∈ x.fetches, f.isAsking
  · obtain ⟨f, hf, ha⟩ := ha
    obtain ⟨⟨k, w⟩, he, hf⟩ := List.mem_flatMap.1 hf
    exact .inr (.inl ⟨k, w, f, walk?_of_mem h.keys he, quiet _ he, hf, ha⟩)
  · refine .inr (.inr (h.can_advance hn hm hx quiet fun f hf => ?_))
    rw [← Bool.not_eq_true]
    exact fun hs => ha ⟨f, hf, hs⟩

/-! ## Walks that are over -/

/-- A walk of this number was there and is no more. -/
def Over (x : Exchange) (k : Key) : Prop := k < x.fresh ∧ x.walk? k = none

theorem walk?_eq_none {k : Key} : x.walk? k = none ↔ k ∉ x.walks.map (·.1) := by
  unfold walk?
  rw [List.lookup_eq_none_iff]
  constructor
  · intro h hk
    obtain ⟨e, he, rfl⟩ := List.mem_map.1 hk
    simpa using h e he
  · intro h e he
    refine bne_iff_ne.2 fun hk => ?_
    exact h (List.mem_map.2 ⟨e, he, hk.symm⟩)

theorem Over.step (h : x.Over k) (hx : x.Tidy) (a : Action) : (x.step a).1.Over k := by
  by_cases ha : x.Heeds a
  · have hs := step_heeds hx ha
    refine ⟨Nat.lt_of_lt_of_le h.1 hs.frame.2.2, walk?_eq_none.2 fun hk => ?_⟩
    rcases List.mem_cons.1 (hs.keys hk) with rfl | hk
    · exact Nat.lt_irrefl _ h.1
    · exact walk?_eq_none.1 h.2 hk
  · rw [step_of_not_heeds hx ha]
    exact h

theorem Sound.finish_over (h : x.Sound n) {r : Except Error Tally}
    (hr : .finish k r ∈ (x.step a).2) : (x.step a).1.Over k := by
  by_cases ha : x.Heeds a
  · have hs := step_heeds h.toTidy ha
    obtain ⟨hk, hm⟩ := hs.finish_gone hr
    obtain ⟨e, he, rfl⟩ := List.mem_map.1 hm
    exact ⟨Nat.lt_of_lt_of_le (h.keyed e he) hs.frame.2.2, hk⟩
  · rw [step_of_not_heeds h.toTidy ha] at hr
    cases hr

/-! ## Runs -/

theorem Sound.run (h : x.Sound n) (as : List Action) :
    (x.run as).1.Sound n ∧ (x.run as).1.width = x.width := by
  induction as generalizing x with
  | nil => exact ⟨h, rfl⟩
  | cons a as ih =>
    obtain ⟨hy, hw⟩ := ih (h.step a)
    refine ⟨hy, hw.trans ?_⟩
    by_cases ha : x.Heeds a
    · exact (step_heeds h.toTidy ha).frame.2.1
    · rw [step_of_not_heeds h.toTidy ha]

theorem Over.run (h : x.Over k) (hx : x.Sound n) (as : List Action) : (x.run as).1.Over k := by
  induction as generalizing x with
  | nil => exact h
  | cons a as ih => exact ih (h.step hx.toTidy a) (hx.step a)

theorem Sound.run_over (h : x.Sound n) {as : List Action} {r : Except Error Tally}
    (hr : .finish k r ∈ (x.run as).2) : (x.run as).1.Over k := by
  induction as generalizing x with
  | nil => cases hr
  | cons a as ih =>
    rcases List.mem_append.1 hr with hr | hr
    · exact (h.finish_over hr).run (h.step a) as
    · exact ih (h.step a) hr

theorem ofConfig?_eq {c : Config} (h : ofConfig? c = some x) :
    x = { limit := c.providerTimeout, width := max 1 c.concurrencyPerRetrieval.toNat,
          shared := { free := max 1 c.concurrency.toNat } } := by
  simp only [ofConfig?, Slots.ofSize?] at h
  split at h
  · simpa using h.symm
  · simp at h

theorem sound_ofConfig {c : Config} (h : ofConfig? c = some x) :
    x.Sound (max 1 c.concurrency.toNat) := by
  rw [ofConfig?_eq h]
  exact ⟨⟨⟨List.nodup_nil, List.nodup_nil⟩, nofun, nofun, accounts_nil _, nofun⟩, nofun, nofun⟩

/-- However walks begin, are answered, write, fail and are dropped, the requests in flight keep
within the slots of both levels. Each slot is free, was handed to a fetch in line or is held by one
that asks, or has yet to get a shared one. A walk that is over has left no fetch behind. While walks
are there a request is in flight, a block is being written or a fetch has its next step to take. -/
theorem run_within_slots {c : Config} {x : Exchange} (h : ofConfig? c = some x)
    (as : List Action) :
    let y := (x.run as).1
    let n := max 1 c.concurrency.toNat
    let m := max 1 c.concurrencyPerRetrieval.toNat
    (inFlight y.fetches ≤ n ∧
      y.shared.free + y.shared.handed.length + inFlight y.fetches = n ∧
      (y.shared.waiting ++ y.shared.handed).Perm (Level.shared.line y.fetches)) ∧
    (∀ k w, y.walk? k = some w → inFlight w.fetches ≤ m ∧
      w.own.free + w.own.handed.length +
        (inFlight w.fetches + (Level.shared.line w.fetches).length) = m ∧
      (w.own.waiting ++ w.own.handed).Perm (Level.own.line w.fetches)) ∧
    (∀ k r, .finish k r ∈ (x.run as).2 → y.walk? k = none) ∧
    (∀ k w, y.walk? k = some w → ∀ bs, ((y.step (.drop k)).1.run bs).1.walk? k = none) ∧
    (y.walks ≠ [] → (∃ f ∈ y.fetches, f.isAsking) ∨
      (∃ k w, y.walk? k = some w ∧ w.writing.isSome) ∨
      ∃ t, y.Heeds (.advance t) ∧ (y.step (.advance t)).1 ≠ y) := by
  intro y n m
  obtain ⟨hy, hw⟩ := (sound_ofConfig h).run as
  have hwidth : y.width = m := by rw [hw, ofConfig?_eq h]
  have hshared : y.shared.Lends n (inFlight y.fetches) (Level.shared.line y.fetches) := by
    rw [← held_shared hy.unspent]
    exact hy.shared
  refine ⟨⟨?_, hshared.total, hshared.line⟩, ?_, ?_, ?_, ?_⟩
  · have := hshared.total
    omega
  · intro k w hk
    have how : w.own.Lends m (inFlight w.fetches + (Level.shared.line w.fetches).length)
        (Level.own.line w.fetches) := by
      rw [← held_own (hy.walk_unspent hk), ← hwidth]
      exact hy.own_of_walk hk
    refine ⟨?_, how.total, how.line⟩
    have := how.total
    omega
  · intro k r hr
    exact ((sound_ofConfig h).run_over hr).2
  · intro k w hk bs
    have hover : (y.step (.drop k)).1.Over k :=
      ⟨Nat.lt_of_lt_of_eq (hy.keyed _ (mem_of_walk? hk)) (drop_frame y k).2.2.symm, walk?_drop y k⟩
    exact (hover.run (hy.step _) bs).2
  · intro hne
    have hn : n ≠ 0 := Nat.ne_of_gt (Nat.le_max_left 1 _)
    have hm : m ≠ 0 := Nat.ne_of_gt (Nat.le_max_left 1 _)
    rcases hy.under_way hn (by rw [hwidth]; exact hm) hne with
      ⟨k, w, links, hk, hl⟩ | ⟨k, w, f, hk, -, hf, ha⟩ | ⟨t, ht⟩
    · exact .inr (.inl ⟨k, w, hk, by rw [hl]; rfl⟩)
    · exact .inl ⟨f, mem_fetches hk hf, ha⟩
    · exact .inr (.inr ⟨t, ht, (step_heeds hy.toTidy ht).advance_ne hy.toTidy⟩)

/-- Two walks, one slot for all: the second waits for the request of the first, and gets its slot
when the first is dropped. -/
theorem one_slot_passes_on :
    ∃ x, ofConfig? { concurrency := 1, concurrencyPerRetrieval := 5 } = some x ∧
      let y := (x.run [.start ⟨[0]⟩ [⟨[7]⟩], .start ⟨[1]⟩ [⟨[7]⟩], .advance 1, .advance 1,
        .advance 3, .advance 3, .advance 1]).1
      let z := (y.run [.drop 0]).1
      y.shared.waiting = [3] ∧ inFlight y.fetches ≤ 1 ∧
        z.shared.handed = [3] ∧ z.walk? 0 = none ∧
        ((∃ f ∈ z.fetches, f.isAsking) ∨ (∃ k w, z.walk? k = some w ∧ w.writing.isSome) ∨
          ∃ t, z.Heeds (.advance t) ∧ (z.step (.advance t)).1 ≠ z) := by
  refine ⟨_, rfl, ?_⟩
  intro y z
  have hy := run_within_slots (c := { concurrency := 1, concurrencyPerRetrieval := 5 }) rfl
    [.start ⟨[0]⟩ [⟨[7]⟩], .start ⟨[1]⟩ [⟨[7]⟩], .advance 1, .advance 1, .advance 3, .advance 3,
      .advance 1]
  have hz := run_within_slots (c := { concurrency := 1, concurrencyPerRetrieval := 5 }) rfl
    [.start ⟨[0]⟩ [⟨[7]⟩], .start ⟨[1]⟩ [⟨[7]⟩], .advance 1, .advance 1, .advance 3, .advance 3,
      .advance 1, .drop 0]
  exact ⟨by decide, hy.1.1, by decide, hy.2.2.2.1 0 _ rfl [], hz.2.2.2.2 (by decide)⟩

end Courier.Exchange
