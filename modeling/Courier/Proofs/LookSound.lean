import Courier.Context.Wait
import Courier.Proofs.FamilySound

/-!
# What is seen at a look

A waiter is done exactly when its signal was given, since a handle that is gone
has given it. So a look sees that the context is over when the context, asked,
would be, but that a deadline counts from the time its alarm goes off
(`look_none_iff`); and a wait ends with the first look that sees anything, work
with the first at which it is done or the wait is (`doneFrom_first`,
`driveFrom_first`).
-/

namespace Courier

namespace Context

variable {α : Type} {c : Context} {f : Family} {s : Signal}

/-- The context as its waiters see it: its deadline is when the alarm goes off. -/
def rounded (c : Context) : Context := { c with deadline := c.deadline.map Instant.alarm }

/-- The first look asks the context itself, the others go by the alarm. -/
def Noticed (c : Context) (first : Bool) (f : Family) : Prop :=
  ((if first then c else c.rounded).error? f.moment).isSome

/-- Cancellation and the alarm are both there to be seen. -/
def Coincide (c : Context) (f : Family) : Prop :=
  (∃ s ∈ c.signals, s ∈ f.moment.given) ∧ ∃ d, c.deadline = some d ∧ d.alarm ≤ f.moment.now

/-- The error the context has. At a later look than the first the alarm may have been seen before a
cancellation that came with it. -/
def Tells (c : Context) (first : Bool) (f : Family) (e : Error) : Prop :=
  c.error? f.moment = some e ∨ first = false ∧ e = .deadlineExceeded ∧ c.Coincide f

/-- The context is one of the family. -/
def Of (f : Family) (c : Context) : Prop :=
  ∃ acts i, f = Family.run acts ∧ f.context? i = some c

/-! ## One look -/

theorem le_alarm (t : Instant) : t ≤ t.alarm := by
  have h (n : Nat) : n ≤ (n + 999999) / 1000000 * 1000000 := by omega
  exact h t

theorem run_after (acts : List Family.Act) (beats : List (Beat α)) :
    (Family.run acts).after beats = Family.run (acts ++ beats.flatMap Beat.acts) := by
  induction beats generalizing acts with
  | nil => simp [Family.after]
  | cons b bs ih =>
    have hb : (Family.run acts).pass b = Family.run (acts ++ b.acts) := by
      rw [Family.run, Family.run, List.foldl_append]; rfl
    rw [List.flatMap_cons, ← List.append_assoc, ← ih, ← hb]
    rfl

theorem Of.after (h : Of f c) (beats : List (Beat α)) : Of (f.after beats) c := by
  obtain ⟨acts, i, rfl, hc⟩ := h
  rw [run_after]
  exact ⟨_, i, rfl, (Family.run_append acts _).1.context? hc⟩

theorem Of.lt_length (h : Of f c) (hs : s ∈ c.signals) : s < f.members.length := by
  obtain ⟨acts, i, rfl, hc⟩ := h
  cases i with
  | none =>
    cases hc
    cases hs
  | some i =>
    obtain ⟨m, hm, rfl⟩ := Option.map_eq_some_iff.mp hc
    have hf := Family.run_linked acts
    have hl := (hf.mem_signals_iff hm s).mp hs
    exact Nat.lt_of_le_of_lt (hf.le_of_line hl) (List.getElem?_eq_some_iff.mp hm).1

/-- A waiter whose handle is gone has been given its signal. -/
theorem Of.isSettled_iff (h : Of f c) (hs : s ∈ c.signals) :
    f.isSettled s = true ↔ s ∈ f.moment.given := by
  have hlt := h.lt_length hs
  obtain ⟨acts, i, rfl, -⟩ := h
  simp only [Family.isSettled, Bool.or_eq_true, decide_eq_true_eq, or_iff_left_iff_imp,
    Bool.not_eq_true', Family.isHeld, List.any_eq_false]
  intro hnone
  obtain ⟨m, hm⟩ : ∃ m, (Family.run acts).members[s]? = some m := ⟨_, List.getElem?_eq_getElem hlt⟩
  obtain ⟨hown, hgone⟩ := (Family.run_linked acts).handle s m hm
  cases hh : m.handle with
  | none => exact hgone hh
  | some t =>
    have := hnone m (List.mem_of_getElem? hm)
    simp [hh, hown t hh] at this

theorem Of.cancelled_iff (h : Of f c) :
    c.signals.any f.isSettled = true ↔ ∃ s ∈ c.signals, s ∈ f.moment.given := by
  rw [List.any_eq_true]
  exact exists_congr fun s => and_congr_right h.isSettled_iff

theorem expired_iff (c : Context) (f : Family) :
    c.deadline.any (Instant.alarm · ≤ f.moment.now) = true ↔
      ∃ d, c.deadline = some d ∧ d.alarm ≤ f.moment.now := by
  rw [Option.any_eq_true]
  exact exists_congr fun d => and_congr_right fun _ => decide_eq_true_iff

theorem noticed_iff {first : Bool} : c.Noticed first f ↔ (∃ s ∈ c.signals, s ∈ f.moment.given) ∨
    ∃ d, c.deadline = some d ∧ (if first then d else d.alarm) ≤ f.moment.now := by
  rw [Noticed, ← Option.ne_none_iff_isSome, Ne, error_eq_none_iff]
  cases first <;> simp [rounded, imp_iff_not_or]

theorem race_none_iff (h : Of f c) (alarmFirst : Bool) :
    c.race f alarmFirst = none ↔ ¬ c.Noticed false f := by
  have hnone : c.race f alarmFirst = none ↔ c.cancelled? f = none ∧ c.expired? f = none := by
    unfold race
    split <;> simp [and_comm]
  rw [hnone, noticed_iff, not_or, ← h.cancelled_iff]
  refine and_congr (by simp [cancelled?]) ?_
  simp only [Bool.false_eq_true, if_false, ← expired_iff]
  simp [expired?]

theorem race_some (h : Of f c) {alarmFirst : Bool} {e : Error}
    (he : c.race f alarmFirst = some e) : c.Tells false f e := by
  have hor : c.cancelled? f = some e ∨ c.expired? f = some e := by
    unfold race at he
    split at he
    · exact ((Option.or_eq_some_iff.mp he).imp_right And.right).symm
    · exact (Option.or_eq_some_iff.mp he).imp_right And.right
  simp only [cancelled?, expired?, Option.ite_none_right_eq_some, Option.some.injEq,
    h.cancelled_iff, expired_iff] at hor
  rcases hor with ⟨hs, rfl⟩ | ⟨hd, rfl⟩
  · exact .inl ((error_eq_cancelled_iff c _).mpr hs)
  · by_cases hs : ∃ s ∈ c.signals, s ∈ f.moment.given
    · exact .inr ⟨rfl, rfl, hs, hd⟩
    · obtain ⟨d, hd, hle⟩ := hd
      exact .inl ((error_eq_exceeded_iff c _).mpr ⟨hs, d, hd, (le_alarm d).trans hle⟩)

/-- What the alarm has gone off for is over when it is asked. -/
theorem noticed_true (h : c.Noticed false f) : c.Noticed true f := by
  rw [noticed_iff] at h ⊢
  rcases h with hs | ⟨d, hd, hle⟩
  · exact .inl hs
  · exact .inr ⟨d, hd, (le_alarm d).trans hle⟩

theorem look_true (h : Of f c) (alarmFirst : Bool) :
    c.look true f alarmFirst = c.error? f.moment := by
  cases he : c.error? f.moment with
  | some e => simp [look, he]
  | none =>
    have hn : ¬ c.Noticed false f := fun hn => by simpa [Noticed, he] using noticed_true hn
    simp [look, he, (race_none_iff h alarmFirst).mpr hn]

theorem look_none_iff (h : Of f c) (first alarmFirst : Bool) :
    c.look first f alarmFirst = none ↔ ¬ c.Noticed first f := by
  cases first with
  | false => exact race_none_iff h alarmFirst
  | true => rw [look_true h]; simp [Noticed]

theorem look_some (h : Of f c) {first alarmFirst : Bool} {e : Error}
    (he : c.look first f alarmFirst = some e) : c.Tells first f e := by
  cases first with
  | false => exact race_some h he
  | true => exact .inl (look_true h alarmFirst ▸ he)

/-! ## All looks -/

section

variable {first : Bool} {b : Beat α} {bs : List (Beat α)} {k : Nat} {e : Error}

/-- A wait that has its first look before it, or behind it, notices at a look that the context is
over. -/
def OverAt (c : Context) (first : Bool) (f : Family) (beats : List (Beat α)) (k : Nat) : Prop :=
  c.Noticed (first && k = 0) (f.after (beats.take (k + 1)))

def TellsAt (c : Context) (first : Bool) (f : Family) (beats : List (Beat α)) (k : Nat)
    (e : Error) : Prop :=
  c.Tells (first && k = 0) (f.after (beats.take (k + 1))) e

@[simp] theorem overAt_zero : c.OverAt first f (b :: bs) 0 ↔ c.Noticed first (f.pass b) := by
  simp [OverAt, Family.after]

@[simp] theorem overAt_succ :
    c.OverAt first f (b :: bs) (k + 1) ↔ c.OverAt false (f.pass b) bs k := by
  simp [OverAt, Family.after]

@[simp] theorem tellsAt_zero : c.TellsAt first f (b :: bs) 0 e ↔ c.Tells first (f.pass b) e := by
  simp [TellsAt, Family.after]

@[simp] theorem tellsAt_succ :
    c.TellsAt first f (b :: bs) (k + 1) e ↔ c.TellsAt false (f.pass b) bs k e := by
  simp [TellsAt, Family.after]

end

theorem doneFrom_first (h : Of f c) (first : Bool) (beats : List (Beat α)) :
    match c.doneFrom first f beats with
    | none => ∀ k < beats.length, ¬ c.OverAt first f beats k
    | some (k, e) => k < beats.length ∧ c.OverAt first f beats k ∧
        (∀ j < k, ¬ c.OverAt first f beats j) ∧ c.TellsAt first f beats k e := by
  induction beats generalizing f first with
  | nil => simp [doneFrom]
  | cons b bs ih =>
    have hb : Of (f.pass b) c := h.after [b]
    have hnone := look_none_iff hb first b.alarmFirst
    unfold doneFrom
    cases hl : c.look first (f.pass b) b.alarmFirst with
    | some e =>
      refine ⟨by simp, ?_, nofun, tellsAt_zero.mpr (look_some hb hl)⟩
      simpa [hl] using hnone
    | none =>
      have h0 : ¬ c.OverAt first f (b :: bs) 0 := by simpa [hl] using hnone
      have hrest := ih hb false
      cases hd : c.doneFrom false (f.pass b) bs with
      | none =>
        rw [hd] at hrest
        rintro (_ | k) hk
        · exact h0
        · simpa using hrest k (by simpa using hk)
      | some r =>
        obtain ⟨k, e⟩ := r
        rw [hd] at hrest
        obtain ⟨hk, hover, hbefore, he⟩ := hrest
        refine ⟨by simpa using hk, by simpa using hover, ?_, by simpa using he⟩
        rintro (_ | j) hj
        · exact h0
        · simpa using hbefore j (by omega)

/-- What the work came to at a look. -/
def cameAt (beats : List (Beat α)) (k : Nat) : Option (Except Error α) := beats[k]?.bind Beat.came

theorem driveFrom_first (h : Of f c) (first : Bool) (beats : List (Beat α)) :
    match c.driveFrom first f beats with
    | none => ∀ k < beats.length, cameAt beats k = none ∧ ¬ c.OverAt first f beats k
    | some (.refused _) => False
    | some (.finished k r) => cameAt beats k = some r ∧
        ∀ j < k, cameAt beats j = none ∧ ¬ c.OverAt first f beats j
    | some (.dropped k e) => k < beats.length ∧ cameAt beats k = none ∧
        c.OverAt first f beats k ∧ c.TellsAt first f beats k e ∧
        ∀ j < k, cameAt beats j = none ∧ ¬ c.OverAt first f beats j := by
  induction beats generalizing f first with
  | nil => simp [driveFrom]
  | cons b bs ih =>
    have hb : Of (f.pass b) c := h.after [b]
    have hnone := look_none_iff hb first b.alarmFirst
    unfold driveFrom
    cases hc : b.came with
    | some r => exact ⟨by simp [cameAt, hc], nofun⟩
    | none =>
      dsimp only
      cases hl : c.look first (f.pass b) b.alarmFirst with
      | some e =>
        refine ⟨by simp, by simp [cameAt, hc], ?_, tellsAt_zero.mpr (look_some hb hl), nofun⟩
        simpa [hl] using hnone
      | none =>
        have h0 : cameAt (b :: bs) 0 = none ∧ ¬ c.OverAt first f (b :: bs) 0 :=
          ⟨by simp [cameAt, hc], by simpa [hl] using hnone⟩
        -- what holds of the looks that are left holds of all after this one
        have hlater {n : Nat}
            (hn : ∀ j < n, cameAt bs j = none ∧ ¬ c.OverAt false (f.pass b) bs j) :
            ∀ j < n + 1, cameAt (b :: bs) j = none ∧ ¬ c.OverAt first f (b :: bs) j := by
          rintro (_ | j) hj
          · exact h0
          · simpa [cameAt] using hn j (by omega)
        have hrest := ih hb false
        rcases hd : c.driveFrom false (f.pass b) bs with _ | e | ⟨k, r⟩ | ⟨k, e⟩ <;>
          rw [hd] at hrest
        · exact hlater hrest
        · exact hrest
        · exact ⟨hrest.1, hlater hrest.2⟩
        · obtain ⟨hk, hcame, hover, he, hbefore⟩ := hrest
          exact ⟨by simpa using hk, hcame, by simpa using hover, by simpa using he, hlater hbefore⟩

end Context

end Courier
