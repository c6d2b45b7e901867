import Courier.Proofs.RecordLemmas
import Mathlib.Data.Finset.Card

/-!
# Candidates are ranked by what was recorded

A history says of a provider how many more failures than successes it had, and
how long the latest success took. As long as there is room for every provider
that the history is about, no entry is dropped, and the entries say the same
(`Tells`). Sorting by them is stable, so it is decided by the history alone.
-/

namespace Courier

namespace Lending

/-! ## What a history says -/

def failures (as : List Action) (p : ProviderId) : Nat :=
  as.countP fun
    | .failure q => q = p
    | _ => false

def successes (as : List Action) (p : ProviderId) : Nat :=
  as.countP fun
    | .success q _ => q = p
    | _ => false

/-- How long the latest success of a provider took; none, if it never succeeded. -/
def latest (as : List Action) (p : ProviderId) : Option Duration :=
  as.reverse.findSome? fun
    | .success q d => if q = p then some d else none
    | _ => none

def standing (as : List Action) (p : ProviderId) : Int × Option Duration :=
  ((failures as p : Int) - successes as p, latest as p)

/-- A provider may come before another: it has fewer failures left over, or as many and either never
succeeded or was not slower. -/
def Ahead (as : List Action) (p q : ProviderId) : Prop :=
  (standing as p).1 < (standing as q).1 ∨ (standing as p).1 = (standing as q).1 ∧
    ∀ d, (standing as p).2 = some d → ∃ e, (standing as q).2 = some e ∧ d.total ≤ e.total

/-- The provider an action needs the entry of, whether or not there was one. -/
def Action.provider? : Action → Option ProviderId
  | .start p _ | .success p _ | .failure p => some p
  | .resume _ | .stop _ | .sort _ => none

def touched (as : List Action) : Finset ProviderId := (as.filterMap Action.provider?).toFinset

/-- What an action adds to the standing of a provider. -/
def Action.note (p : ProviderId) (r : Int × Option Duration) : Action → Int × Option Duration
  | .success q d => if q = p then (r.1 - 1, some d) else r
  | .failure q => if q = p then (r.1 + 1, r.2) else r
  | .start _ _ | .resume _ | .stop _ | .sort _ => r

theorem standing_snoc (as : List Action) (a : Action) (p : ProviderId) :
    standing (as ++ [a]) p = a.note p (standing as p) := by
  cases a with
  | success q d =>
    by_cases hq : q = p
    · simp [standing, failures, successes, latest, Action.note, hq]
      omega
    · simp [standing, failures, successes, latest, Action.note, hq]
  | failure q =>
    by_cases hq : q = p
    · simp [standing, failures, successes, latest, Action.note, hq]
      omega
    · simp [standing, failures, successes, latest, Action.note, hq]
  | start | resume | stop | sort => simp [standing, failures, successes, latest, Action.note]

theorem mem_touched_snoc {as : List Action} {a : Action} {p : ProviderId} :
    p ∈ touched (as ++ [a]) ↔ p ∈ touched as ∨ a.provider? = some p := by
  simp [touched]

end Lending

/-! ## Entries where there is room -/

namespace Session

variable {s : Session} {p q : ProviderId}

/-- The entry of a provider can be made without dropping another. -/
def HasRoom (s : Session) (p : ProviderId) : Prop := (s.entry? p).isSome ∨ s.isFull = false

theorem entry?_put_of_room (h : s.HasRoom p) (e : Entry) (hq : q ≠ p) :
    entry? (s.put p e) q = s.entry? q := by
  have hr : entry? (s.put p e) q = entry? (s.track p).1 q := lookup_replace_ne e _ hq
  rw [hr]
  cases hp : s.entry? p with
  | some e₀ => rw [track_of_some hp]
  | none =>
    have hfull : s.isFull = false := by simpa [HasRoom, hp] using h
    simp [track, hp, hfull, entry?_eq, List.lookup_cons, beq_false_of_ne hq]

theorem rank_of_some {e : Entry} (h : s.entry? p = some e) :
    s.rank p = (e.score, e.lastSuccess) := by
  simp [rank, h]

theorem rank_eq (s : Session) (p : ProviderId) :
    s.rank p = ((s.entryOf p).score, (s.entryOf p).lastSuccess) := by
  cases h : s.entry? p with
  | some e => simp [rank, entryOf, h]
  | none => simp [rank, entryOf, h, Entry.fresh, Entry.score]

theorem rank_of_none (h : s.entry? p = none) : s.rank p = (0, none) := by
  simp [rank, h]

theorem rank_put (h : s.HasRoom p) (e : Entry) :
    (s.put p e).rank q = if q = p then (e.score, e.lastSuccess) else s.rank q := by
  split
  · next hq => rw [hq, rank_of_some (entry?_put_self e)]
  · next hq => rw [rank, entry?_put_of_room h e hq]; rfl

@[simp] theorem put_capacity (e : Entry) : (s.put p e).capacity = s.capacity := by
  unfold put track; split <;> rfl

theorem mem_keys_put {e : Entry} (h : q ∈ (s.put p e).table.map (·.1)) :
    q = p ∨ q ∈ s.table.map (·.1) := by
  rw [put, setEntry, keys_replace, track] at h
  split at h
  · exact .inr h
  · rcases List.mem_cons.1 h with hq | hq
    · exact .inl hq
    · right
      split at hq
      · exact List.map_subset _ List.filter_sublist.subset hq
      · exact hq

theorem entry?_eq_none_iff : s.entry? p = none ↔ p ∉ s.table.map (·.1) := by
  rw [entry?_eq, List.lookup_eq_none_iff]
  simp only [List.mem_map, bne_iff_ne]
  exact ⟨fun h ⟨x, hx, hp⟩ => h x hx hp.symm, fun h x hx hp => h ⟨x, hx, hp.symm⟩⟩

end Session

/-! ## Entries tell the history -/

namespace Lending

variable {l : Lending} {s : Session} {as : List Action} {a : Action} {p : ProviderId}

structure Tells (as : List Action) (s : Session) : Prop where
  distinct : s.Distinct
  known : ∀ p ∈ s.table.map (·.1), p ∈ touched as
  rank : ∀ p, s.rank p = standing as p

/-- How an action changes the session, told by what it notes. -/
inductive Noted (a : Action) (s : Session) : Session → Prop
  | same (h : ∀ p r, a.note p r = r) : Noted a s s
  | put (p : ProviderId) (e : Entry) (hp : a.provider? = some p ∨ p ∈ s.table.map (·.1))
      (he : (e.score, e.lastSuccess) = a.note p (s.rank p))
      (h : ∀ q ≠ p, ∀ r, a.note q r = r) : Noted a s (s.put p e)

theorem Action.note_enter (a : Action) (p : ProviderId) (r : Record) :
    a.note p ((r.failures : Int) - r.successes, r.lastSuccess) =
      (((a.enter p r).failures : Int) - (a.enter p r).successes, (a.enter p r).lastSuccess) := by
  cases a with
  | success q d =>
    by_cases hq : q = p
    · simp [note, enter, hq]
      omega
    · simp [note, enter, hq]
  | failure q =>
    by_cases hq : q = p
    · simp [note, enter, hq]
      omega
    · simp [note, enter, hq]
  | start | resume | stop | sort => rfl

theorem Action.note_eq_self {a : Action} (h : ∀ r, a.enter p r = r) (r : Int × Option Duration) :
    a.note p r = r := by
  cases a with
  | success q d =>
    have hq : q ≠ p := by
      rintro rfl
      simpa [enter] using congrArg Record.successes (h {})
    simp [note, hq]
  | failure q =>
    have hq : q ≠ p := by
      rintro rfl
      simpa [enter] using congrArg Record.failures (h {})
    simp [note, hq]
  | start | resume | stop | sort => rfl

theorem provider?_of_tracks (h : l.tracks a = some p) : a.provider? = some p := by
  cases a with
  | start q t =>
    simp only [tracks] at h
    split at h
    · exact h
    · cases h
  | success q d => exact h
  | failure q => exact h
  | resume | stop | sort => cases h

theorem Touches.noted {s : Session} (h : Touches l a s) : Noted a l.session s := by
  cases h with
  | nothing _ hr => exact .same fun p r => Action.note_eq_self (hr p) r
  | entry p e hp he hr =>
    refine .put p e ?_ ?_ fun q hq r => Action.note_eq_self (hr q hq) r
    · refine hp.imp provider?_of_tracks fun ⟨_, hp⟩ => ?_
      by_contra hn
      simp [Session.entry?_eq_none_iff.2 hn] at hp
    · rw [Session.rank_eq]
      refine Eq.trans ?_ (a.note_enter p (l.session.entryOf p).record).symm
      rw [← he]
      rfl

theorem Noted.capacity {s' : Session} (h : Noted a s s') : s'.capacity = s.capacity := by
  cases h with
  | same => rfl
  | put => exact Session.put_capacity _

theorem touched_subset (as bs : List Action) : touched as ⊆ touched (as ++ bs) := by
  intro p hp
  simp only [touched, List.filterMap_append, List.toFinset_append]
  exact Finset.mem_union_left _ hp

/-- A table that knows fewer providers than it has room for is not full. -/
theorem Tells.hasRoom (h : Tells as s) (hp : p ∈ touched (as ++ [a]))
    (hc : ∀ n, s.capacity = some n → (touched (as ++ [a])).card ≤ n) : s.HasRoom p := by
  cases he : s.entry? p with
  | some e => exact .inl (by simp [he])
  | none =>
    right
    cases hs : s.capacity with
    | none => simp [Session.isFull, hs]
    | some n =>
      have hsub : insert p (s.table.map (·.1)).toFinset ⊆ touched (as ++ [a]) := by
        refine Finset.insert_subset hp fun q hq => ?_
        exact touched_subset as [a] (h.known q (List.mem_toFinset.1 hq))
      have hcard := (Finset.card_le_card hsub).trans (hc n hs)
      rw [Finset.card_insert_of_notMem (by simpa using Session.entry?_eq_none_iff.1 he),
        List.toFinset_card_of_nodup h.distinct, List.length_map] at hcard
      simp [Session.isFull, hs]
      omega

theorem Tells.snoc {s' : Session} (h : Tells as s) (hn : Noted a s s')
    (hc : ∀ n, s.capacity = some n → (touched (as ++ [a])).card ≤ n) : Tells (as ++ [a]) s' := by
  have hold : ∀ q ∈ s.table.map (·.1), q ∈ touched (as ++ [a]) :=
    fun q hq => touched_subset as [a] (h.known q hq)
  cases hn with
  | same ha =>
    refine ⟨h.distinct, hold, fun q => ?_⟩
    rw [standing_snoc, ha, h.rank q]
  | put p e hp he ha =>
    have hp : p ∈ touched (as ++ [a]) := hp.elim (fun hp => mem_touched_snoc.2 (.inr hp)) (hold p)
    refine ⟨Session.distinct_put e h.distinct, fun q hq => ?_, fun q => ?_⟩
    · rcases Session.mem_keys_put hq with rfl | hq
      · exact hp
      · exact hold q hq
    · rw [Session.rank_put (h.hasRoom hp hc), standing_snoc]
      split
      · next hq => rw [hq, he, h.rank p]
      · next hq => rw [ha q hq, h.rank q]

theorem tells_opened (s : Session) (h : s.table = []) : Tells [] s := by
  have hn : ∀ p, s.entry? p = none := fun p => by simp [Session.entry?_eq, h]
  refine ⟨by simp [Session.Distinct, h], by simp [h], fun p => ?_⟩
  rw [Session.rank_of_none (hn p)]
  rfl

/-- The history a session starts out with may be that of the actions before. -/
theorem Tells.run (h : Tells as l.session) (bs : List Action)
    (hc : ∀ n, l.session.capacity = some n → (touched (as ++ bs)).card ≤ n) :
    Tells (as ++ bs) (l.run bs).1.session := by
  induction bs generalizing as l with
  | nil => rw [List.append_nil]; exact h
  | cons b bs ih =>
    have hn := (act_touches l b).noted
    have happ : as ++ b :: bs = as ++ [b] ++ bs := by simp
    have hstep : Tells (as ++ [b]) (l.act b).1.session := by
      refine h.snoc hn fun n hs => (Finset.card_le_card ?_).trans (hc n hs)
      rw [happ]
      exact touched_subset _ _
    rw [happ] at hc ⊢
    exact ih hstep fun n hs => hc n (hn.capacity ▸ hs)

end Lending

/-! ## Sorting by rank -/

namespace Session

theorem durationLe_iff {a b : Option Duration} :
    durationLe a b = true ↔ ∀ d, a = some d → ∃ e, b = some e ∧ d.total ≤ e.total := by
  cases a <;> cases b <;> simp [durationLe]

theorem durationLe_trans {a b c : Option Duration} (h : durationLe a b = true)
    (h' : durationLe b c = true) : durationLe a c = true := by
  rw [durationLe_iff] at *
  intro d hd
  obtain ⟨e, he, hde⟩ := h d hd
  obtain ⟨f, hf, hef⟩ := h' e he
  exact ⟨f, hf, hde.trans hef⟩

theorem durationLe_total (a b : Option Duration) :
    durationLe a b = true ∨ durationLe b a = true := by
  cases a <;> cases b <;> simp [durationLe, Nat.le_total]

theorem rankLe_iff {a b : Int × Option Duration} :
    rankLe a b = true ↔ a.1 < b.1 ∨ a.1 = b.1 ∧ durationLe a.2 b.2 = true := by
  simp [rankLe]

theorem rankLe_trans (a b c : Int × Option Duration) (h : rankLe a b = true)
    (h' : rankLe b c = true) : rankLe a c = true := by
  rw [rankLe_iff] at *
  rcases h with h | ⟨h, hd⟩
  · left; rcases h' with h' | ⟨h', -⟩ <;> omega
  · rcases h' with h' | ⟨h', hd'⟩
    · left; omega
    · exact .inr ⟨h.trans h', durationLe_trans hd hd'⟩

theorem rankLe_total (a b : Int × Option Duration) : (rankLe a b || rankLe b a) = true := by
  rw [Bool.or_eq_true, rankLe_iff, rankLe_iff]
  have := durationLe_total a.2 b.2
  rw [eq_comm (a := b.1)]
  rcases Int.lt_trichotomy a.1 b.1 with h | h | h <;> simp [h, this]

theorem rankLe_refl (a : Int × Option Duration) : rankLe a a = true := by
  simpa using rankLe_total a a

/-- Sorting leaves those in their order of whom none comes before another. -/
theorem filter_mergeSort {α : Type} {le : α → α → Bool} (l : List α) (P : α → Bool)
    (trans : ∀ a b c, le a b → le b c → le a c) (total : ∀ a b, le a b || le b a)
    (h : ∀ a b, P a → P b → le a b) : (l.mergeSort le).filter P = l.filter P := by
  have hsorted : (l.filter P).Pairwise fun a b => le a b :=
    List.pairwise_filter.2 (List.pairwise_of_forall fun a b => h a b)
  have hsub := (List.sublist_mergeSort trans total hsorted List.filter_sublist).filter P
  rw [List.filter_filter] at hsub
  simp only [Bool.and_self] at hsub
  exact (hsub.eq_of_length ((List.mergeSort_perm l le).symm.filter P).length_eq).symm

theorem sortCandidates_pairwise (s : Session) (cs : List Candidate) :
    (s.sortCandidates cs).Pairwise fun c d => rankLe (s.rank c.provider) (s.rank d.provider) := by
  apply List.pairwise_mergeSort
  · exact fun _ _ _ => rankLe_trans _ _ _
  · exact fun _ _ => rankLe_total _ _

theorem filter_sortCandidates (s : Session) (cs : List Candidate) (P : Candidate → Bool)
    (h : ∀ c d, P c → P d → s.rank c.provider = s.rank d.provider) :
    (s.sortCandidates cs).filter P = cs.filter P := by
  apply filter_mergeSort
  · exact fun _ _ _ => rankLe_trans _ _ _
  · exact fun _ _ => rankLe_total _ _
  · intro c d hc hd
    rw [h c d hc hd]
    exact rankLe_refl _

end Session

namespace Lending

theorem ahead_iff {as : List Action} {p q : ProviderId} :
    Ahead as p q ↔ Session.rankLe (standing as p) (standing as q) = true := by
  rw [Session.rankLe_iff, Session.durationLe_iff]
  rfl

/-- Candidates come out by the failures of their providers less the successes, then by how long the
latest success took, with providers that never succeeded first. Those of providers of equal standing
stay in the order they were given in, and so do any some of them. -/
theorem run_ranked (policy : Policy) (live : Bool) (capacity : Option Nat) (as : List Action)
    (cs : List Candidate) (h : ∀ n, capacity = some n → (touched as).card ≤ n) :
    let l := (run { session := { policy, live, capacity } } as).1
    let sorted := l.session.sortCandidates cs
    sorted.Perm cs ∧ sorted.Pairwise (fun c d => Ahead as c.provider d.provider) ∧
      ∀ P : Candidate → Bool,
        (∀ c d, P c → P d → standing as c.provider = standing as d.provider) →
          sorted.filter P = cs.filter P := by
  intro l sorted
  let l₀ : Lending := { session := { policy, live, capacity } }
  have h₀ : Tells [] l₀.session := tells_opened l₀.session rfl
  have ht : Tells as l.session := h₀.run as h
  refine ⟨List.mergeSort_perm _ _, ?_, fun P hP => ?_⟩
  · refine (Session.sortCandidates_pairwise l.session cs).imp fun hcd => ?_
    rw [ht.rank, ht.rank] at hcd
    exact ahead_iff.2 hcd
  · refine Session.filter_sortCandidates l.session cs P fun c d hc hd => ?_
    rw [ht.rank, ht.rank, hP c d hc hd]

/-- The first provider, whose second try waits for the permit of the other, fails once more than it
succeeds. Between it and those that succeeded stand both candidates of one that is unknown. -/
theorem ranked_three_providers :
    let as : List Action :=
      [.start ⟨[1]⟩ 0, .start ⟨[1]⟩ 1, .success ⟨[1]⟩ ⟨2, 0⟩, .failure ⟨[1]⟩, .stop 0, .resume 1,
        .success ⟨[2]⟩ ⟨5, 0⟩, .failure ⟨[1]⟩, .success ⟨[3]⟩ ⟨4, 1⟩]
    let c (p : UInt8) (addr : String) : Candidate :=
      { root := default, provider := ⟨[p]⟩, addrs := [addr] }
    let cs := [c 0 "a", c 1 "b", c 2 "c", c 0 "d", c 3 "e"]
    let s : Session := { policy := { default := { limit := 1 } }, capacity := some 3 }
    let sorted := (run { session := s } as).1.session.sortCandidates cs
    (∀ n, some 3 = some n → (touched as).card ≤ n) ∧
      [0, 1, 2, 3].map (fun p => standing as ⟨[p]⟩) =
        [(0, none), (1, some ⟨2, 0⟩), (-1, some ⟨5, 0⟩), (-1, some ⟨4, 1⟩)] ∧
      sorted.Perm cs ∧ sorted.Pairwise (fun c d => Ahead as c.provider d.provider) ∧
      sorted.filter (fun c => c.provider = ⟨[0]⟩) = [c 0 "a", c 0 "d"] := by
  intro as c cs s sorted
  have hroom : ∀ n, some 3 = some n → (touched as).card ≤ n := by
    intro n hn
    cases hn
    decide
  obtain ⟨hperm, hahead, hstable⟩ := run_ranked s.policy true (some 3) as cs hroom
  refine ⟨hroom, by decide, hperm, hahead, (hstable _ fun c d hc hd => ?_).trans (by decide)⟩
  rw [of_decide_eq_true hc, of_decide_eq_true hd]

end Lending

end Courier
