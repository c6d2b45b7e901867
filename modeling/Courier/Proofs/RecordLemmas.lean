import Courier.Proofs.LendingSound

/-!
# Entries and records

An action leaves the table of a session as it is, or puts another entry in the
place of one (`Touches`). The entry it puts there has the record of the one that
was there, and on it what the action adds.
-/

namespace Courier

/-- How a provider did, as far as anybody said. -/
structure Record where
  successes : Nat := 0
  failures : Nat := 0
  lastSuccess : Option Duration := none
  deriving DecidableEq, Repr

namespace Entry

def record (e : Entry) : Record := ⟨e.successes, e.failures, e.lastSuccess⟩

@[simp] theorem record_keeping (e : Entry) (a : Account) : (e.keeping a).record = e.record := rfl

end Entry

/-! ## Slots of an entry that is there -/

namespace Session

variable {s : Session} {p : ProviderId}

theorem entryOf_of_some {e : Entry} (h : s.entry? p = some e) : s.entryOf p = e := by
  simp [entryOf, h]

theorem acquire_of_still (h : s.live = false) (p : ProviderId) (t : Ticket) :
    s.acquire p t = (s, .unlimited) := by
  simp [acquire, h]

/-- The session after an operation on the slots of a provider that makes no entry. -/
def Adjusted (s : Session) (p : ProviderId) (s' : Session) : Prop :=
  s' = s ∨ ∃ e a, s.entry? p = some e ∧ s' = s.put p (e.keeping a)

theorem resume?_adjusted {t : Ticket} {s' : Session} (h : s.resume? p t = some s') :
    s.Adjusted p s' := by
  cases he : s.entry? p with
  | none => simp [resume?, he] at h
  | some e =>
    rw [resume?_eq he] at h
    obtain ⟨a, -, rfl⟩ := Option.map_eq_some_iff.1 h
    exact .inr ⟨e, a, he, rfl⟩

theorem release_adjusted (s : Session) (p : ProviderId) : s.Adjusted p (s.release p).1 := by
  cases he : s.entry? p with
  | none => exact .inl (by simp [release, he])
  | some e => exact .inr ⟨e, _, he, by rw [release_eq he]⟩

theorem abandon_adjusted (s : Session) (p : ProviderId) (t : Ticket) :
    s.Adjusted p (s.abandon p t).1 := by
  cases he : s.entry? p with
  | none => exact .inl (by simp [abandon, he])
  | some e => exact .inr ⟨e, _, he, by rw [abandon_eq he]⟩

end Session

/-! ## Actions -/

namespace Lending

/-- The record of a provider with what an action puts on it. -/
def Action.enter (p : ProviderId) (r : Record) : Action → Record
  | .success q d =>
    if q = p then { r with successes := r.successes + 1, lastSuccess := some d } else r
  | .failure q => if q = p then { r with failures := r.failures + 1 } else r
  | .start _ _ | .resume _ | .stop _ | .sort _ => r

/-- The provider an action makes an entry for unless it has one. Asking for a permit does so only
in a session that is live. -/
def tracks (l : Lending) : Action → Option ProviderId
  | .start p t => if l.session.live && (l.loan? t).isNone then some p else none
  | .success p _ | .failure p => some p
  | .resume _ | .stop _ | .sort _ => none

/-- What an action makes of the session. -/
inductive Touches (l : Lending) (a : Action) : Session → Prop
  | nothing (h : l.tracks a = none) (hr : ∀ p r, a.enter p r = r) : Touches l a l.session
  | entry (p : ProviderId) (e : Entry)
      (hp : l.tracks a = some p ∨ l.tracks a = none ∧ (l.session.entry? p).isSome)
      (he : e.record = a.enter p (l.session.entryOf p).record)
      (hr : ∀ q ≠ p, ∀ r, a.enter q r = r) : Touches l a (l.session.put p e)

variable {l : Lending} {a : Action} {p : ProviderId}

theorem Touches.of_adjusted {s : Session} (ht : l.tracks a = none) (hr : ∀ p r, a.enter p r = r)
    (h : l.session.Adjusted p s) : Touches l a s := by
  rcases h with rfl | ⟨e, b, he, rfl⟩
  · exact .nothing ht hr
  · refine .entry p _ (.inr ⟨ht, by simp [he]⟩) ?_ fun q _ r => hr q r
    rw [hr, Session.entryOf_of_some he, Entry.record_keeping]

theorem act_touches (l : Lending) (a : Action) : Touches l a (l.act a).1.session := by
  cases a with
  | start p t =>
    cases ht : l.loan? t with
    | some x =>
      simp only [act, ht]
      exact .nothing (by simp [tracks, ht]) fun _ _ => rfl
    | none =>
      simp only [act, ht, start]
      cases hl : l.session.live with
      | false =>
        rw [Session.acquire_of_still hl]
        exact .nothing (by simp [tracks, hl]) fun _ _ => rfl
      | true =>
        rw [Session.acquire_eq hl]
        exact .entry p _ (.inl (by simp [tracks, hl, ht])) rfl fun _ _ _ => rfl
  | resume t =>
    simp only [act]
    cases hr : l.resume? t with
    | none => exact .nothing rfl fun _ _ => rfl
    | some l' =>
      simp only [resume?, Option.bind_eq_bind, Option.bind_eq_some_iff] at hr
      obtain ⟨x, -, hr⟩ := hr
      split at hr
      · cases hr
      · obtain ⟨s', hs, hl⟩ := Option.bind_eq_some_iff.1 hr
        cases hl
        exact .of_adjusted rfl (fun _ _ => rfl) (Session.resume?_adjusted hs)
  | stop t =>
    simp only [act, stop]; split
    · exact .nothing rfl fun _ _ => rfl
    · split
      · exact .nothing rfl fun _ _ => rfl
      · exact .of_adjusted rfl (fun _ _ => rfl) (Session.release_adjusted _ _)
      · exact .of_adjusted rfl (fun _ _ => rfl) (Session.abandon_adjusted _ _ _)
  | success p d =>
    simp only [act, recordSuccess, Session.recordSuccess, Session.modify_eq]
    refine .entry p _ (.inl rfl) ?_ fun q hq r => if_neg hq.symm
    simp [Action.enter, Entry.record]
  | failure p =>
    simp only [act, recordFailure, Session.recordFailure, Session.modify_eq]
    refine .entry p _ (.inl rfl) ?_ fun q hq r => if_neg hq.symm
    simp [Action.enter, Entry.record]
  | sort cs => exact .nothing rfl fun _ _ => rfl

end Lending

end Courier
