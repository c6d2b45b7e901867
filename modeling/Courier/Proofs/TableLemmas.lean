import Courier.Session

/-!
# Entries of a session

Every operation of a session comes down to one: it makes room for the entry of
a provider and puts another in its place (`put`). As no provider has two
entries, making room leaves those of busy providers as they are, and an idle
one is dropped or stays.
-/

namespace Courier

namespace Session

variable (s : Session) (p : ProviderId)

/-- The entry an operation on a provider finds, or makes. -/
def entryOf : Entry := (s.entry? p).getD (Entry.fresh (s.policy.configOf p).limit)

/-- The session after an operation that leaves the provider with an entry. -/
def put (e : Entry) : Session := (s.track p).1.setEntry p e

def Distinct : Prop := (s.table.map (·.1)).Nodup

/-! ## Replacing an entry -/

variable {s p}

theorem keys_replace (e : Entry) (l : List (ProviderId × Entry)) :
    (replace p e l).map (·.1) = l.map (·.1) := by
  induction l with
  | nil => rfl
  | cons x r ih =>
    simp only [replace]; split
    · next h => simp [h]
    · simp [ih]

theorem lookup_replace_self {e e₀ : Entry} {l : List (ProviderId × Entry)}
    (h : l.lookup p = some e₀) : (replace p e l).lookup p = some e := by
  induction l with
  | nil => simp at h
  | cons x r ih =>
    simp only [replace]; split
    · simp
    · next hx =>
      have hp : (p == x.1) = false := beq_false_of_ne fun hp => hx hp.symm
      rw [List.lookup_cons, hp] at h ⊢
      exact ih h

theorem lookup_replace_ne {q : ProviderId} (e : Entry) (l : List (ProviderId × Entry))
    (h : q ≠ p) : (replace p e l).lookup q = l.lookup q := by
  induction l with
  | nil => rfl
  | cons x r ih =>
    obtain ⟨k, e'⟩ := x
    simp only [replace]; split
    · next hx =>
      cases hx
      simp [List.lookup_cons, beq_false_of_ne h]
    · rw [List.lookup_cons, List.lookup_cons, ih]

/-! ## Making room -/

theorem lookup_filter_eq_none {l : List (ProviderId × Entry)} {q : ProviderId}
    (f : ProviderId × Entry → Bool) (h : l.lookup q = none) : (l.filter f).lookup q = none := by
  rw [List.lookup_eq_none_iff] at h ⊢
  exact fun x hx => h x (List.filter_sublist.subset hx)

theorem lookup_filter {l : List (ProviderId × Entry)} (hl : (l.map (·.1)).Nodup) {q : ProviderId}
    {e : Entry} (h : l.lookup q = some e) :
    (l.filter (·.2.isBusy)).lookup q = if e.isBusy then some e else none := by
  induction l with
  | nil => simp at h
  | cons x r ih =>
    obtain ⟨k, e'⟩ := x
    simp only [List.map_cons, List.nodup_cons] at hl
    by_cases hq : q = k
    · subst hq
      rw [List.lookup_cons_self] at h
      cases h
      have hr : r.lookup q = none := by
        rw [List.lookup_eq_none_iff]
        intro y hy
        have hne : q ≠ y.1 := fun hqy => hl.1 (List.mem_map.2 ⟨y, hy, hqy.symm⟩)
        simpa using hne
      by_cases he : e.isBusy
      · simp [he]
      · simp [he, lookup_filter_eq_none _ hr]
    · rw [List.lookup_cons, beq_false_of_ne hq] at h
      rw [List.filter_cons]; split
      · rw [List.lookup_cons, beq_false_of_ne hq]; exact ih hl.2 h
      · exact ih hl.2 h

theorem entry?_eq (s : Session) (p : ProviderId) : s.entry? p = s.table.lookup p := rfl

theorem track_of_some {e : Entry} (h : s.entry? p = some e) : s.track p = (s, e) := by
  simp [track, h]

theorem track_entry : (s.track p).2 = s.entryOf p := by
  unfold track entryOf; split <;> simp_all

theorem distinct_track (h : s.Distinct) : (s.track p).1.Distinct := by
  unfold track; split
  · exact h
  · next hp =>
    simp only [Distinct, List.map_cons, List.nodup_cons]
    rw [entry?_eq, List.lookup_eq_none_iff] at hp
    -- an entry that was kept was there before, and the provider had none
    have key {l : List (ProviderId × Entry)} (hl : l.Sublist s.table) :
        p ∉ l.map (·.1) ∧ (l.map (·.1)).Nodup := by
      refine ⟨?_, h.sublist (hl.map _)⟩
      intro hm
      obtain ⟨y, hy, rfl⟩ := List.mem_map.1 hm
      simpa using hp y (hl.subset hy)
    split
    · exact key List.filter_sublist
    · exact key (List.Sublist.refl _)

theorem entry?_track_self : entry? (s.track p).1 p = some (s.entryOf p) := by
  unfold track; split
  · next h => simp [entryOf, h]
  · next h => rw [entry?_eq] at h; simp [entry?_eq, entryOf, h]

theorem entry?_track_ne {q : ProviderId} (h : s.Distinct) (hq : q ≠ p) :
    entry? (s.track p).1 q = s.entry? q ∨
      entry? (s.track p).1 q = none ∧ ∃ e, s.entry? q = some e ∧ e.isBusy = false := by
  unfold track; split
  · exact .inl rfl
  · next hp =>
    simp only [entry?_eq, List.lookup_cons, beq_false_of_ne hq]
    split
    · cases he : s.table.lookup q with
      | none => exact .inl (lookup_filter_eq_none _ he)
      | some e =>
        rw [lookup_filter h he]
        by_cases hb : e.isBusy
        · exact .inl (if_pos hb)
        · exact .inr ⟨if_neg hb, e, rfl, by simpa using hb⟩
    · exact .inl rfl

/-! ## Putting an entry in place -/

theorem put_of_some {e₀ : Entry} (e : Entry) (h : s.entry? p = some e₀) :
    s.put p e = s.setEntry p e := by
  rw [put, track_of_some h]

@[simp] theorem put_policy (e : Entry) : (s.put p e).policy = s.policy := by
  unfold put track; split <;> rfl

@[simp] theorem put_live (e : Entry) : (s.put p e).live = s.live := by
  unfold put track; split <;> rfl

theorem distinct_put (e : Entry) (h : s.Distinct) : (s.put p e).Distinct := by
  have := distinct_track (p := p) h
  rwa [Distinct, put, setEntry, keys_replace]

@[simp] theorem entry?_put_self (e : Entry) : entry? (s.put p e) p = some e :=
  lookup_replace_self entry?_track_self

theorem entry?_put_ne {q : ProviderId} (e : Entry) (h : s.Distinct) (hq : q ≠ p) :
    entry? (s.put p e) q = s.entry? q ∨
      entry? (s.put p e) q = none ∧ ∃ e, s.entry? q = some e ∧ e.isBusy = false := by
  have ht := entry?_track_ne h hq
  have hr : entry? (s.put p e) q = entry? (s.track p).1 q := lookup_replace_ne e _ hq
  rwa [hr]

end Session

end Courier
