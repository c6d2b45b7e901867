import Courier.Proofs.RankingSound
import Mathlib.Data.Finset.Card

/-!
# The table of a session stays small

A provider is busy while a permit for it is held or waited for. In a live
session the entries that making room leaves are those of the busy ones, so the
table outgrows its capacity by no more than there were busy providers at once
(`run_capped`), and no other entry is ever dropped. In a session that is not
live permits hold nothing, and every entry is as good as idle.
-/

namespace Courier

/-! ## Tables and room -/

namespace Session

variable {s : Session} {p q : ProviderId}

theorem lookup_filter_isBusy {l : List (ProviderId × Entry)} (hl : (l.map (·.1)).Nodup) :
    (l.filter (·.2.isBusy)).lookup q = (l.lookup q).filter (·.isBusy) := by
  cases h : l.lookup q with
  | none => exact lookup_filter_eq_none _ h
  | some e => rw [lookup_filter hl h, Option.filter_some]

/-- An entry is dropped to make room for one that is new, if the table is full and nobody holds it. -/
theorem entry?_put_eq_none_iff (h : s.Distinct) (hq : q ≠ p) {e₀ : Entry}
    (he : s.entry? q = some e₀) (e : Entry) :
    entry? (s.put p e) q = none ↔ s.entry? p = none ∧ s.isFull ∧ e₀.isBusy = false := by
  have hr : entry? (s.put p e) q = entry? (s.track p).1 q := lookup_replace_ne e _ hq
  rw [hr]
  cases hp : s.entry? p with
  | some e' => simp [track_of_some hp, he]
  | none =>
    rw [entry?_eq] at he
    simp only [track, hp, entry?_eq, List.lookup_cons, beq_false_of_ne hq]
    split
    · next hf => rw [lookup_filter_isBusy h, he]; simp [hf]
    · next hf => simp [he, hf]

theorem length_setEntry (s : Session) (p : ProviderId) (e : Entry) :
    (s.setEntry p e).table.length = s.table.length := by
  have hk := congrArg List.length (keys_replace (p := p) e s.table)
  rwa [List.length_map, List.length_map] at hk

theorem length_put_of_some (h : (s.entry? p).isSome) (e : Entry) :
    (s.put p e).table.length = s.table.length := by
  obtain ⟨e₀, he⟩ := Option.isSome_iff_exists.1 h
  rw [put_of_some e he, length_setEntry]

theorem length_put_of_none (h : s.entry? p = none) (e : Entry) :
    (s.put p e).table.length =
      (if s.isFull then s.table.filter (·.2.isBusy) else s.table).length + 1 := by
  rw [put, length_setEntry]
  simp [track, h]

theorem isFull_iff {n : Nat} (h : s.capacity = some n) : s.isFull ↔ n ≤ s.table.length := by
  simp [isFull, h]

theorem entry?_of_mem (h : s.Distinct) {x : ProviderId × Entry} (hx : x ∈ s.table) :
    s.entry? x.1 = some x.2 := by
  cases he : s.entry? x.1 with
  | none =>
    rw [entry?_eq, List.lookup_eq_none_iff] at he
    simpa using he x hx
  | some e =>
    obtain ⟨l₁, l₂, hl, -⟩ := List.lookup_eq_some_iff.1 he
    have hm : (x.1, e) ∈ s.table := by rw [hl]; simp
    have hi := List.inj_on_of_nodup_map h hx hm rfl
    rw [hi]

end Session

namespace Lending

variable {l : Lending} {a : Action} {p : ProviderId} {n : Nat}

/-! ## Who is busy -/

/-- The providers a permit is held or waited for of. -/
def busy (l : Lending) : Finset ProviderId := (l.loans.map (·.provider)).toFinset

/-- The greatest number of providers that were busy at a time. -/
def peak (l : Lending) : List Action → Nat
  | [] => l.busy.card
  | a :: as => max l.busy.card ((l.act a).1.peak as)

theorem mem_busy : p ∈ l.busy ↔ Loan.onProvider p l.loans ≠ [] := by
  simp [busy, Loan.onProvider, List.filter_eq_nil_iff]

/-- Only in a live session does a permit make its provider busy for the table. -/
structure Tallied (l : Lending) : Prop where
  distinct : l.session.Distinct
  held : ∀ p, (l.session.entryOf p).isBusy = true ↔ l.session.live = true ∧ p ∈ l.busy

theorem Sound.tallied (h : l.Sound) : l.Tallied := by
  refine ⟨h.distinct, fun p => ?_⟩
  have hb : (l.session.entryOf p).holders = (Loan.onProvider p l.loans).length :=
    (h.kept.balanced p).holders
  rw [Entry.isBusy, decide_eq_true_iff, hb, List.length_pos_iff, mem_busy]
  exact (and_iff_right h.live).symm

/-- What holds of a session that is not live, whatever was done with it. -/
structure Still (l : Lending) : Prop where
  live : l.session.live = false
  distinct : l.session.Distinct
  unlimited : ∀ x ∈ l.loans, x.permit = some false
  idle : ∀ p, (l.session.entryOf p).holders = 0

theorem Still.tallied (h : l.Still) : l.Tallied :=
  ⟨h.distinct, fun p => by simp [Entry.isBusy, h.idle p, h.live]⟩

theorem Still.modify (h : l.Still) {f : Entry → Entry} (hf : ∀ e, (f e).holders = e.holders) :
    Still { l with session := l.session.modify p f } := by
  rw [Session.modify_eq]
  refine ⟨?_, Session.distinct_put _ h.distinct, h.unlimited, fun q => ?_⟩
  · rw [Session.put_live, h.live]
  · by_cases hq : q = p
    · subst hq
      rw [Session.entryOf_of_some (Session.entry?_put_self _), hf, h.idle]
    · have hi := h.idle q
      rw [Session.entryOf] at hi ⊢
      rcases Session.entry?_put_ne (f (l.session.entryOf p)) h.distinct hq with he | ⟨he, -⟩
      · rwa [he, Session.put_policy]
      · rw [he]; rfl

theorem Still.act (h : l.Still) (a : Action) : (l.act a).1.Still := by
  cases a with
  | start p t =>
    simp only [Lending.act]; split
    · exact h
    · simp only [start, Session.acquire_of_still h.live]
      refine ⟨h.live, h.distinct, fun x hx => ?_, h.idle⟩
      rcases List.mem_append.1 hx with hx | hx
      · exact h.unlimited x hx
      · rw [List.mem_singleton.1 hx]
  | resume t =>
    have hr : l.resume? t = none := by
      cases hx : l.loan? t with
      | none => simp [resume?, hx]
      | some x => simp [resume?, hx, h.unlimited x (List.mem_of_find?_eq_some hx)]
    simpa [Lending.act, hr] using h
  | stop t =>
    cases hx : l.loan? t with
    | none => simpa [Lending.act, stop, hx] using h
    | some x =>
      simp only [Lending.act, stop, hx, h.unlimited x (List.mem_of_find?_eq_some hx)]
      exact ⟨h.live, h.distinct, fun y hy => h.unlimited y (List.mem_filter.1 hy).1, h.idle⟩
  | success p d => exact h.modify fun _ => rfl
  | failure p => exact h.modify fun _ => rfl
  | sort cs => exact h

/-- What holds of any session with its loans. -/
def Steady (l : Lending) : Prop := l.Sound ∨ l.Still

theorem Steady.tallied (h : l.Steady) : l.Tallied := h.elim Sound.tallied Still.tallied

theorem Steady.act (h : l.Steady) (a : Action) : (l.act a).1.Steady :=
  h.imp (fun h => (h.act a).1) (fun h => h.act a)

theorem Steady.run (h : l.Steady) (as : List Action) : (l.run as).1.Steady := by
  induction as generalizing l with
  | nil => exact h
  | cons a as ih => exact ih (h.act a)

theorem steady_opened (policy : Policy) (live : Bool) (capacity : Option Nat) :
    Steady { session := { policy, live, capacity } } := by
  cases live with
  | true => exact .inl (sound_opened policy capacity)
  | false => exact .inr ⟨rfl, List.nodup_nil, nofun, fun _ => rfl⟩

/-! ## Room for one more -/

theorem Tallied.length_filter_le (h : l.Tallied) :
    (l.session.table.filter (·.2.isBusy)).length ≤ l.busy.card := by
  have hk : ((l.session.table.filter (·.2.isBusy)).map (·.1)).Nodup :=
    h.distinct.sublist (List.filter_sublist.map _)
  rw [← List.length_map (·.1), ← List.toFinset_card_of_nodup hk]
  refine Finset.card_le_card fun p hp => ?_
  obtain ⟨x, hx, rfl⟩ := List.mem_map.1 (List.mem_toFinset.1 hp)
  obtain ⟨hx, hb⟩ := List.mem_filter.1 hx
  refine ((h.held x.1).1 ?_).2
  rwa [Session.entryOf_of_some (Session.entry?_of_mem h.distinct hx)]

/-- A table that grows has room, or keeps the busy providers and one more. -/
theorem Touches.length_le {s : Session} (ht : Touches l a s) (h : l.Tallied)
    (hc : l.session.capacity = some n) :
    s.table.length ≤ max l.session.table.length (max n (l.busy.card + 1)) := by
  cases ht with
  | nothing => exact le_max_left _ _
  | entry p e =>
    cases hp : l.session.entry? p with
    | some e₀ =>
      rw [Session.length_put_of_some (by simp [hp])]
      exact le_max_left _ _
    | none =>
      have hb := h.length_filter_le
      rw [Session.length_put_of_none hp]
      split
      · omega
      · next hf =>
        rw [Session.isFull_iff hc] at hf
        omega

theorem Touches.capacity {s : Session} (ht : Touches l a s) : s.capacity = l.session.capacity := by
  cases ht with
  | nothing => rfl
  | entry => exact Session.put_capacity _

theorem Touches.live {s : Session} (ht : Touches l a s) : s.live = l.session.live := by
  cases ht with
  | nothing => rfl
  | entry => exact Session.put_live _

theorem run_settings (l : Lending) (as : List Action) :
    (l.run as).1.session.capacity = l.session.capacity ∧
      (l.run as).1.session.live = l.session.live := by
  induction as generalizing l with
  | nil => exact ⟨rfl, rfl⟩
  | cons a as ih =>
    have ht := act_touches l a
    exact ⟨(ih _).1.trans ht.capacity, (ih _).2.trans ht.live⟩

theorem Steady.length_run (h : l.Steady) (hc : l.session.capacity = some n) (as : List Action) :
    (l.run as).1.session.table.length ≤
      max l.session.table.length (max n (l.peak as + 1)) := by
  induction as generalizing l with
  | nil => exact le_max_left _ _
  | cons a as ih =>
    have ht := act_touches l a
    have hstep := ht.length_le h.tallied hc
    have hrest := ih (h.act a) (ht.capacity.trans hc)
    change ((l.act a).1.run as).1.session.table.length ≤ _
    simp only [peak]
    omega

/-! ## What is forgotten -/

/-- An entry is dropped by an action that needs a new one, if the table is full and nobody in a live
session holds it. -/
theorem Touches.entry?_eq_none_iff {s : Session} (ht : Touches l a s) (h : l.Tallied) {e : Entry}
    (he : l.session.entry? p = some e) :
    s.entry? p = none ↔ (∃ q, l.tracks a = some q ∧ l.session.entry? q = none) ∧
      l.session.isFull ∧ (l.session.live = true → p ∉ l.busy) := by
  have hb : e.isBusy = false ↔ (l.session.live = true → p ∉ l.busy) := by
    have hh := h.held p
    rw [Session.entryOf_of_some he] at hh
    rw [← Bool.not_eq_true, hh, not_and]
  cases ht with
  | nothing hn => simp [he, hn]
  | entry q e' hq =>
    by_cases hpq : p = q
    · subst hpq
      rcases hq with hq | ⟨hq, -⟩ <;> simp [hq, he]
    · rw [Session.entry?_put_eq_none_iff h.distinct hpq he, hb]
      rcases hq with hq | ⟨hq, hs⟩
      · simp [hq]
      · simp [hq, Option.isSome_iff_ne_none.1 hs]

theorem Touches.record_eq {s : Session} (ht : Touches l a s) (h : l.Tallied) {e : Entry}
    (he : s.entry? p = some e) : e.record = a.enter p (l.session.entryOf p).record := by
  cases ht with
  | nothing _ hr => rw [Session.entryOf_of_some he, hr]
  | entry q e₀ _ hq hr =>
    by_cases hpq : p = q
    · subst hpq
      rw [Session.entry?_put_self] at he
      cases he
      exact hq
    · rcases Session.entry?_put_ne e₀ h.distinct hpq with hn | ⟨hn, -⟩
      · rw [hn] at he
        rw [Session.entryOf_of_some he, hr p hpq]
      · rw [hn] at he
        cases he

/-- A session tracks no more providers than it has room for, or than were busy at a time and one
more. The record of a provider is what was put on it, until another provider needs an entry while
the table is full. It is forgotten then, but in a live session not while it is busy. -/
theorem run_capped (policy : Policy) (live : Bool) (n : Nat) (as : List Action) :
    let l₀ : Lending := { session := { policy, live, capacity := some n } }
    let l := (l₀.run as).1
    l.session.Distinct ∧ l.session.table.length ≤ max n (l₀.peak as + 1) ∧
      ∀ a p, let s := (l.act a).1.session
        (∀ e, s.entry? p = some e → e.record = a.enter p (l.session.entryOf p).record) ∧
        ((l.session.entry? p).isSome →
          (s.entry? p = none ↔ (∃ q, l.tracks a = some q ∧ l.session.entry? q = none) ∧
            n ≤ l.session.table.length ∧ (live = true → p ∉ l.busy))) := by
  intro l₀ l
  have h₀ : l₀.Steady := steady_opened policy live (some n)
  have h : l.Tallied := (h₀.run as).tallied
  obtain ⟨hc, hl⟩ := run_settings l₀ as
  refine ⟨h.distinct, ?_, fun a p => ⟨fun e he => (act_touches l a).record_eq h he, fun hp => ?_⟩⟩
  · have hlen := h₀.length_run rfl as
    exact hlen.trans (max_le (Nat.zero_le _) le_rfl)
  · obtain ⟨e, he⟩ := Option.isSome_iff_exists.1 hp
    rw [(act_touches l a).entry?_eq_none_iff h he, Session.isFull_iff hc, hl]

/-- There is room for one, two are busy, and a third makes the table as long as it can be. -/
example :
    let l₀ : Lending := { session := { capacity := some 1 } }
    let as : List Action := [.start ⟨[1]⟩ 0, .start ⟨[2]⟩ 1, .failure ⟨[3]⟩]
    (l₀.run as).1.session.table.length = 3 ∧ l₀.peak as = 2 := by
  decide

/-- In a session that is not live a permit does not keep the record of its provider. -/
theorem forgets_a_borrower :
    let l₀ : Lending := { session := { live := false, capacity := some 1 } }
    let l := (l₀.run [.start ⟨[1]⟩ 0, .failure ⟨[1]⟩]).1
    ⟨[1]⟩ ∈ l.busy ∧ (l.session.entry? ⟨[1]⟩).map (·.failures) = some 1 ∧
      Session.entry? (l.act (.failure ⟨[2]⟩)).1.session ⟨[1]⟩ = none := by
  decide

end Lending

end Courier
