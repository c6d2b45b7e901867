import Courier.Context.Work
import Courier.Proofs.LookSound

/-!
# Waiting is as good as asking

If the signals to come are known, a wait can be told in advance: looking at
every instant, twice, since whoever gives a signal comes after those who wait,
a wait ends at the first look at which a signal or the alarm is due
(`ending_due`). So the closed forms and the looks come to the same
(`done_everyInstant`, `drive_everyInstant`), and both to what the context says
when it is asked.
-/

namespace Courier

namespace Context

variable {α : Type} {c : Context} {f : Family}

/-! ## A look at every instant -/

section

open Family (Linked)

variable {future : List Announced} {came : Instant → Option (Except Error α)}

/-- There are two looks at an instant: when it has come, and when the signals were given that are
announced for it. -/
def beatAt (now : Instant) (future : List Announced) (came : Instant → Option (Except Error α))
    (k : Nat) : Beat α where
  acts := if k % 2 = 0 then [.advance (now + k / 2)]
    else (future.filter (·.instant = now + k / 2)).map (.cancel ·.signal)
  came := came (now + k / 2)

def everyInstant (f : Family) (future : List Announced)
    (came : Instant → Option (Except Error α)) (n : Nat) : List (Beat α) :=
  (List.range (2 * n)).map (beatAt f.moment.now future came)

theorem foldl_cancel (hf : Linked f) (l : List Announced) :
    let g := (l.map (Family.Act.cancel ·.signal)).foldl Family.act f
    Linked g ∧ g.members = f.members ∧ g.moment.now = f.moment.now ∧
      ∀ s, s ∈ g.moment.given ↔
        s ∈ f.moment.given ∨ s < f.members.length ∧ ∃ a ∈ l, a.signal = s := by
  induction l generalizing f with
  | nil => simp [hf]
  | cons a l ih =>
    obtain ⟨hl, hm, hn, hg⟩ := ih (hf.cancel a.signal)
    refine ⟨hl, hm.trans (f.cancel_members _), hn.trans (f.cancel_now _), fun s => (hg s).trans ?_⟩
    rw [Family.mem_given_cancel hf, Family.cancel_members]
    simp only [List.mem_cons, exists_eq_or_imp, eq_comm (a := s)]
    constructor
    · rintro ((hs | ⟨hs, hlt⟩) | ⟨hlt, hs⟩)
      · exact .inl hs
      · exact .inr ⟨hs ▸ hlt, .inl hs⟩
      · exact .inr ⟨hlt, .inr hs⟩
    · rintro (hs | ⟨hlt, hs | hs⟩)
      · exact .inl (.inl hs)
      · exact .inl (.inr ⟨hs, hs ▸ hlt⟩)
      · exact .inr ⟨hlt, hs⟩

/-- Where a family is after the looks before the one at `k`: the instant of the last of them has
come, and the signals are given that were announced for them. -/
theorem after_range (hf : Linked f) (hfuture : ∀ a ∈ future, f.moment.now ≤ a.instant)
    (came : Instant → Option (Except Error α)) (k : Nat) :
    let g := f.after ((List.range k).map (beatAt f.moment.now future came))
    Linked g ∧ g.members = f.members ∧ g.moment.now = f.moment.now + (k - 1) / 2 ∧
      ∀ s, s ∈ g.moment.given ↔ s ∈ f.moment.given ∨ s < f.members.length ∧
        ∃ a ∈ future, a.signal = s ∧ 2 * (a.instant - f.moment.now) + 1 < k := by
  induction k with
  | zero => simp [Family.after, hf]
  | succ k ih =>
    obtain ⟨hl, hm, hn, hg⟩ := ih
    generalize hF : f.after ((List.range k).map (beatAt f.moment.now future came)) = F at *
    have hstep : f.after ((List.range (k + 1)).map (beatAt f.moment.now future came)) =
        F.pass (beatAt f.moment.now future came k) := by
      rw [List.range_succ, List.map_append, ← hF]
      simp [Family.after]
    rw [hstep]
    by_cases hk : k % 2 = 0
    · have hpass : F.pass (beatAt f.moment.now future came k) =
          F.act (.advance (f.moment.now + k / 2)) := by
        simp [Family.pass, beatAt, hk]
      rw [hpass]
      refine ⟨hl.act _, hm, ?_, fun s => (hg s).trans ?_⟩
      · simp only [Family.act, Moment.advanceTo, hn]
        lia
      · have hlt (t : Nat) : 2 * t + 1 < k ↔ 2 * t + 1 < k + 1 := by omega
        simp only [hlt]
    · have hpass : F.pass (beatAt f.moment.now future came k) =
          ((future.filter (·.instant = f.moment.now + k / 2)).map
            (Family.Act.cancel ·.signal)).foldl Family.act F := by
        simp [Family.pass, beatAt, hk]
      rw [hpass]
      obtain ⟨hl', hm', hn', hg'⟩ :=
        foldl_cancel hl (future.filter (·.instant = f.moment.now + k / 2))
      refine ⟨hl', hm'.trans hm, ?_, fun s => (hg' s).trans ?_⟩
      · rw [hn', hn]
        lia
      · rw [hg s, hm, or_assoc, ← and_or_left]
        refine or_congr_right (and_congr_right fun _ => ?_)
        have hlt (a : Announced) (ha : a ∈ future) :
            2 * (a.instant - f.moment.now) + 1 < k + 1 ↔
              2 * (a.instant - f.moment.now) + 1 < k ∨ a.instant = f.moment.now + k / 2 := by
          have := hfuture a ha
          lia
        simp only [List.mem_filter, decide_eq_true_eq, ← exists_or]
        refine exists_congr fun a => ⟨?_, ?_⟩
        · rintro (⟨ha, hs, h⟩ | ⟨⟨ha, h⟩, hs⟩)
          · exact ⟨ha, hs, (hlt a ha).mpr (.inl h)⟩
          · exact ⟨ha, hs, (hlt a ha).mpr (.inr h)⟩
        · rintro ⟨ha, hs, h⟩
          exact ((hlt a ha).mp h).imp (fun h => ⟨ha, hs, h⟩) fun h => ⟨⟨ha, h⟩, hs⟩

theorem mem_take_everyInstant {k n : Nat} (hk : k < 2 * n) :
    (everyInstant f future came n).take (k + 1) =
      (List.range (k + 1)).map (beatAt f.moment.now future came) := by
  rw [everyInstant, ← List.map_take, List.take_range, Nat.min_eq_left hk]

/-- At a look a signal announced for the context has been given. -/
def SignalDue (c : Context) (now : Instant) (future : List Announced) (k : Nat) : Prop :=
  ∃ a ∈ future, a.signal ∈ c.signals ∧ 2 * (a.instant - now) + 1 ≤ k

def AlarmDue (c : Context) (now : Instant) (k : Nat) : Prop :=
  ∃ d, c.deadline = some d ∧ 2 * (d.alarm - now) ≤ k

theorem le_half_iff (t now k : Nat) : t ≤ now + k / 2 ↔ 2 * (t - now) ≤ k := by
  omega

section

variable (h : Of f c) (hfuture : ∀ a ∈ future, f.moment.now ≤ a.instant)
  (hlive : c.error? f.moment = none) {k n : Nat}
include h hfuture hlive

theorem given_everyInstant (came : Instant → Option (Except Error α)) (hk : k < 2 * n) :
    let g := f.after ((everyInstant f future came n).take (k + 1))
    g.moment.now = f.moment.now + k / 2 ∧
      ((∃ s ∈ c.signals, s ∈ g.moment.given) ↔ c.SignalDue f.moment.now future k) := by
  have hf : Linked f := by
    obtain ⟨acts, -, rfl, -⟩ := h
    exact Family.run_linked acts
  intro g
  obtain ⟨-, -, hnow, hgiven⟩ := after_range hf hfuture came (k + 1)
  rw [← mem_take_everyInstant hk] at hnow hgiven
  refine ⟨hnow, ?_⟩
  have hnot := ((error_eq_none_iff c _).mp hlive).1
  constructor
  · rintro ⟨s, hs, hg⟩
    rcases (hgiven s).mp hg with hg | ⟨-, a, ha, rfl, hle⟩
    · exact absurd ⟨s, hs, hg⟩ hnot
    · exact ⟨a, ha, hs, Nat.le_of_lt_succ hle⟩
  · rintro ⟨a, ha, hs, hle⟩
    exact ⟨a.signal, hs, (hgiven _).mpr (.inr ⟨h.lt_length hs, a, ha, rfl, Nat.lt_succ_of_le hle⟩)⟩

theorem overAt_everyInstant (hk : k < 2 * n) :
    c.OverAt true f (everyInstant f future came n) k ↔
      c.SignalDue f.moment.now future k ∨ c.AlarmDue f.moment.now k := by
  obtain ⟨hnow, hgiven⟩ := given_everyInstant h hfuture hlive came hk
  rw [OverAt, noticed_iff, hgiven, hnow]
  refine or_congr_right (exists_congr fun d => and_congr_right fun hd => ?_)
  have hlt := ((error_eq_none_iff c _).mp hlive).2 d hd
  have := le_alarm d
  rw [← le_half_iff]
  split
  · next hk0 =>
    have hk0 : k = 0 := by simpa using hk0
    subst hk0
    exact iff_of_false (by lia) (by lia)
  · exact Iff.rfl

theorem tellsAt_everyInstant (hk : k < 2 * n) {e : Error}
    (he : c.TellsAt true f (everyInstant f future came n) k e) :
    (¬ c.AlarmDue f.moment.now k → c.SignalDue f.moment.now future k → e = .cancelled) ∧
      (¬ c.SignalDue f.moment.now future k → c.AlarmDue f.moment.now k →
        e = .deadlineExceeded) := by
  obtain ⟨hnow, hgiven⟩ := given_everyInstant h hfuture hlive came hk
  constructor
  · intro ha hs
    rcases he with he | ⟨-, -, -, d, hd, hle⟩
    · rw [(error_eq_cancelled_iff c _).mpr (hgiven.mpr hs)] at he
      exact (Option.some.inj he).symm
    · exact absurd ⟨d, hd, (le_half_iff d.alarm _ k).mp (hnow ▸ hle)⟩ ha
  · rintro hs ⟨d, hd, hle⟩
    rcases he with he | ⟨-, rfl, -⟩
    · have hover : d ≤ f.moment.now + k / 2 :=
        (le_alarm d).trans ((le_half_iff d.alarm _ k).mpr hle)
      rw [(error_eq_exceeded_iff c _).mpr ⟨hs ∘ hgiven.mp, d, hd, hnow ▸ hover⟩] at he
      exact (Option.some.inj he).symm
    · rfl

end

theorem firstSignal_earliest (c : Context) (future : List Announced) :
    Earliest {t | ∃ a ∈ future, a.signal ∈ c.signals ∧ a.instant = t} (c.firstSignal future) := by
  have hfold (d : Option Instant) (S : Set Instant) (hd : Earliest S d) :
      Earliest (S ∪ {t | ∃ a ∈ future, a.signal ∈ c.signals ∧ a.instant = t})
        (future.foldl (fun d a => if a.signal ∈ c.signals then earlier d (some a.instant) else d)
          d) := by
    induction future generalizing d S with
    | nil => simpa using hd
    | cons a future ih =>
      by_cases ha : a.signal ∈ c.signals
      · have := ih _ _ (hd.union (earliest_singleton (some a.instant)))
        simp only [List.foldl_cons, ha, if_true]
        convert this using 1
        ext t
        simp only [Set.mem_union, Set.mem_ofPred_eq, List.mem_cons, exists_eq_or_imp, ha, true_and,
          Option.some.injEq, or_assoc]
      · simp only [List.foldl_cons, ha, if_false]
        convert ih d S hd using 1
        ext t
        simp [ha]
  simpa [firstSignal] using hfold none ∅ rfl

theorem signalDue_of_none (h : c.firstSignal future = none) (now : Instant) (k : Nat) :
    ¬ c.SignalDue now future k := by
  have hs := firstSignal_earliest c future
  rw [h] at hs
  rintro ⟨a, ha, hc, -⟩
  exact Set.eq_empty_iff_forall_notMem.mp hs a.instant ⟨a, ha, hc, rfl⟩

theorem signalDue_of_some {t : Instant} (h : c.firstSignal future = some t) {now : Instant}
    (hfuture : ∀ a ∈ future, now ≤ a.instant) :
    now ≤ t ∧ ∀ k, c.SignalDue now future k ↔ 2 * (t - now) + 1 ≤ k := by
  have hs := firstSignal_earliest c future
  rw [h] at hs
  obtain ⟨⟨a, ha, hc, rfl⟩, hleast⟩ := hs
  refine ⟨hfuture a ha, fun k => ⟨?_, fun hk => ⟨a, ha, hc, hk⟩⟩⟩
  rintro ⟨b, hb, hbc, hk⟩
  have : a.instant ≤ b.instant := hleast ⟨b, hb, hbc, rfl⟩
  lia

theorem alarmDue_of_none (h : c.deadline.map Instant.alarm = none) (now : Instant) (k : Nat) :
    ¬ c.AlarmDue now k := by
  simp [AlarmDue, Option.map_eq_none_iff.mp h]

theorem alarmDue_of_some {t : Instant} (h : c.deadline.map Instant.alarm = some t) (now : Instant)
    (k : Nat) : c.AlarmDue now k ↔ 2 * (t - now) ≤ k := by
  obtain ⟨d, hd, rfl⟩ := Option.map_eq_some_iff.mp h
  simp [AlarmDue, hd]

/-- A context that is live ends at the first look at which a signal or its alarm is due. -/
theorem ending_due {m : Moment} (hlive : c.error? m = none)
    (hfuture : ∀ a ∈ future, m.now ≤ a.instant) :
    match c.ending m future with
    | none => ∀ k, ¬ c.SignalDue m.now future k ∧ ¬ c.AlarmDue m.now k
    | some (t, e) => ∃ k, t = m.now + k / 2 ∧
        (∀ j < k, ¬ c.SignalDue m.now future j ∧ ¬ c.AlarmDue m.now j) ∧
        ((c.SignalDue m.now future k ∧ ¬ c.AlarmDue m.now k ∧ e = .cancelled) ∨
          c.AlarmDue m.now k ∧ ¬ c.SignalDue m.now future k ∧ e = .deadlineExceeded) := by
  have hlate (u : Instant) (hu : c.deadline.map Instant.alarm = some u) : m.now ≤ u := by
    obtain ⟨d, hd, rfl⟩ := Option.map_eq_some_iff.mp hu
    exact (((error_eq_none_iff c _).mp hlive).2 d hd).le.trans (le_alarm d)
  unfold ending
  rw [hlive]
  cases hu : c.deadline.map Instant.alarm with
  | none =>
    have hno := alarmDue_of_none hu m.now
    cases hs : c.firstSignal future with
    | none => exact fun k => ⟨signalDue_of_none hs m.now k, hno k⟩
    | some t =>
      obtain ⟨hle, hdue⟩ := signalDue_of_some hs hfuture
      refine ⟨2 * (t - m.now) + 1, by lia, fun j hj => ⟨?_, hno j⟩, .inl ⟨?_, hno _, rfl⟩⟩
      · exact fun h => absurd ((hdue j).mp h) (by lia)
      · exact (hdue _).mpr (Nat.le_refl _)
  | some u =>
    have hle := hlate u hu
    have hdue := alarmDue_of_some hu m.now
    cases hs : c.firstSignal future with
    | none =>
      have hno := signalDue_of_none hs m.now
      refine ⟨2 * (u - m.now), by lia, fun j hj => ⟨hno j, ?_⟩, .inr ⟨?_, hno _, rfl⟩⟩
      · exact fun h => absurd ((hdue j).mp h) (by lia)
      · exact (hdue _).mpr (Nat.le_refl _)
    | some t =>
      obtain ⟨hlet, hsdue⟩ := signalDue_of_some hs hfuture
      by_cases hut : u ≤ t
      · simp only [if_pos hut]
        refine ⟨2 * (u - m.now), by lia, fun j hj => ?_, .inr ?_⟩
        · rw [hsdue, hdue]
          lia
        · rw [hsdue, hdue]
          exact ⟨Nat.le_refl _, by lia, trivial⟩
      · simp only [if_neg hut]
        refine ⟨2 * (t - m.now) + 1, by lia, fun j hj => ?_, .inl ?_⟩
        · rw [hsdue, hdue]
          lia
        · rw [hsdue, hdue]
          exact ⟨Nat.le_refl _, by lia, trivial⟩

section

variable (h : Of f c) (hfuture : ∀ a ∈ future, f.moment.now ≤ a.instant)
  (hlive : c.error? f.moment = none) {k n : Nat}
include h hfuture hlive

theorem ending_of_overAt (hk : k < 2 * n) {e : Error}
    (hover : c.OverAt true f (everyInstant f future came n) k)
    (hbefore : ∀ j < k, ¬ c.OverAt true f (everyInstant f future came n) j)
    (he : c.TellsAt true f (everyInstant f future came n) k e) :
    c.ending f.moment future = some (f.moment.now + k / 2, e) := by
  rw [overAt_everyInstant h hfuture hlive hk] at hover
  have hdue := ending_due hlive hfuture
  cases hend : c.ending f.moment future with
  | none =>
    rw [hend] at hdue
    exact absurd hover (not_or.mpr (hdue k))
  | some r =>
    obtain ⟨t, e'⟩ := r
    rw [hend] at hdue
    obtain ⟨k', rfl, hnone, hcause⟩ := hdue
    -- both are the first look at which anything is due
    obtain rfl : k = k' := by
      rcases Nat.lt_trichotomy k k' with hlt | heq | hlt
      · exact absurd hover (not_or.mpr (hnone k hlt))
      · exact heq
      · refine absurd ?_ (hbefore k' hlt)
        rw [overAt_everyInstant h hfuture hlive (hlt.trans hk)]
        exact hcause.imp And.left And.left
    obtain ⟨hcancelled, hexceeded⟩ := tellsAt_everyInstant h hfuture hlive hk he
    rcases hcause with ⟨hs, ha, rfl⟩ | ⟨ha, hs, rfl⟩
    · rw [hcancelled ha hs]
    · rw [hexceeded hs ha]

theorem ending_late (hk : k ≤ 2 * n)
    (hbefore : ∀ j < k, ¬ c.OverAt true f (everyInstant f future came n) j)
    {t : Instant} {e : Error} (hend : c.ending f.moment future = some (t, e)) :
    f.moment.now + k / 2 ≤ t := by
  have hdue := ending_due hlive hfuture
  rw [hend] at hdue
  obtain ⟨k', rfl, -, hcause⟩ := hdue
  have hle : k ≤ k' := by
    by_contra hlt
    rw [Nat.not_le] at hlt
    refine absurd ?_ (hbefore k' hlt)
    rw [overAt_everyInstant h hfuture hlive (hlt.trans_le hk)]
    exact hcause.imp And.left And.left
  lia

end

theorem everyInstant_succ (f : Family) (future : List Announced)
    (came : Instant → Option (Except Error α)) (n : Nat) : ∃ bs,
    everyInstant f future came (n + 1) = beatAt f.moment.now future came 0 :: bs := by
  rw [everyInstant, Nat.mul_succ, List.range_succ_eq_map]
  exact ⟨_, rfl⟩

theorem pass_beatAt_zero (f : Family) (future : List Announced)
    (came : Instant → Option (Except Error α)) :
    f.pass (beatAt f.moment.now future came 0) = f := by
  simp [Family.pass, beatAt, Family.act, Moment.advanceTo]

theorem filter_of_le {β : Type} {t u : Instant} (h : t ≤ u) (x : β) :
    (some (t, x)).filter (·.1 ≤ u) = some (t, x) := by
  simp [Option.filter_some, h]

theorem filter_of_lt {β : Type} {t u : Instant} (h : u < t) (x : β) :
    (some (t, x)).filter (·.1 ≤ u) = none := by
  simp [Option.filter_some, h]

/-- Waiting with a look at every instant comes to what `ending` says. -/
theorem done_everyInstant (h : Of f c) (hfuture : ∀ a ∈ future, f.moment.now ≤ a.instant)
    (came : Instant → Option (Except Error α)) (n : Nat) :
    (c.done f (everyInstant f future came (n + 1))).map
        (fun (k, e) => (f.moment.now + k / 2, e)) =
      (c.ending f.moment future).filter (·.1 ≤ f.moment.now + n) := by
  have hlen : (everyInstant f future came (n + 1)).length = 2 * (n + 1) := by
    simp [everyInstant]
  have hfirst := doneFrom_first h true (everyInstant f future came (n + 1))
  rw [hlen] at hfirst
  cases he : c.error? f.moment with
  | some e =>
    obtain ⟨bs, hbs⟩ := everyInstant_succ f future came n
    have hdone : c.done f (everyInstant f future came (n + 1)) = some (0, e) := by
      rw [hbs, done, doneFrom, pass_beatAt_zero, look_true h, he]
    have hend : c.ending f.moment future = some (f.moment.now, e) := by simp [ending, he]
    rw [hdone, hend, filter_of_le (Nat.le_add_right ..)]
    simp
  | none =>
    cases hd : c.done f (everyInstant f future came (n + 1)) with
    | none =>
      rw [done] at hd
      rw [hd] at hfirst
      cases hend : c.ending f.moment future with
      | none => rfl
      | some r =>
        obtain ⟨t, e⟩ := r
        have := ending_late h hfuture he (Nat.le_refl _) hfirst hend
        rw [filter_of_lt (by lia)]
        rfl
    | some r =>
      obtain ⟨k, e⟩ := r
      rw [done] at hd
      rw [hd] at hfirst
      obtain ⟨hk, hover, hbefore, htells⟩ := hfirst
      rw [ending_of_overAt h hfuture he hk hover hbefore htells]
      rw [filter_of_le (by lia)]
      rfl

/-- What becomes of work and when, if the looks at it are two at every instant from one on. -/
def Fate.timed (now : Instant) : Fate α → Instant × Except Error α
  | .refused e => (now, .error e)
  | .finished k r => (now + k / 2, r)
  | .dropped k e => (now + k / 2, .error e)

theorem run_of_ready {m : Moment} (hlive : c.error? m = none) {ready : Instant}
    (h : ∀ t e, c.ending m future = some (t, e) → ready ≤ t) (result : Except Error α) :
    c.run m future ready result = (ready, result) := by
  simp only [run, hlive]
  split
  · rfl
  · next t e hend => exact if_pos (h t e hend)

theorem run_of_late {m : Moment} (hlive : c.error? m = none) {ready u : Instant}
    (hready : u < ready) (h : ∀ t e, c.ending m future = some (t, e) → u < t)
    (result : Except Error α) : u < (c.run m future ready result).1 := by
  simp only [run, hlive]
  split
  · exact hready
  · next t e hend =>
    split
    · exact hready
    · exact h t e hend

/-- Driving work with a look at every instant comes to what `run` says. -/
theorem drive_everyInstant (h : Of f c) (hfuture : ∀ a ∈ future, f.moment.now ≤ a.instant)
    {ready : Instant} (hready : f.moment.now ≤ ready) (result : Except Error α) (n : Nat) :
    let came := fun t => if ready ≤ t then some result else none
    (c.drive f (everyInstant f future came (n + 1))).map (Fate.timed f.moment.now) =
      (some (c.run f.moment future ready result)).filter (·.1 ≤ f.moment.now + n) := by
  intro came
  have hlen : (everyInstant f future came (n + 1)).length = 2 * (n + 1) := by
    simp [everyInstant]
  have hcame {k : Nat} (hk : k < 2 * (n + 1)) :
      cameAt (everyInstant f future came (n + 1)) k =
        if ready ≤ f.moment.now + k / 2 then some result else none := by
    simp [cameAt, everyInstant, hk, beatAt, came]
  cases he : c.error? f.moment with
  | some e =>
    have hrun : c.run f.moment future ready result = (f.moment.now, .error e) := by simp [run, he]
    rw [hrun, filter_of_le (Nat.le_add_right ..)]
    simp [drive, he, Fate.timed]
  | none =>
    have hfirst := driveFrom_first h true (everyInstant f future came (n + 1))
    rw [hlen] at hfirst
    have hd : c.drive f (everyInstant f future came (n + 1)) =
        c.driveFrom true f (everyInstant f future came (n + 1)) := by
      simp [drive, he]
    rw [hd]
    rcases hdrive : c.driveFrom true f (everyInstant f future came (n + 1)) with
      _ | e | ⟨k, r⟩ | ⟨k, e⟩ <;> rw [hdrive] at hfirst
    · -- the first look at which the work is done would be one of them
      have hlate : f.moment.now + n < ready := by
        by_contra hle
        have hk : 2 * (ready - f.moment.now) < 2 * (n + 1) := by lia
        have := (hfirst _ hk).1
        rw [hcame hk, if_pos (by lia)] at this
        cases this
      have hending (t : Instant) (e : Error) (hend : c.ending f.moment future = some (t, e)) :
          f.moment.now + n < t := by
        have := ending_late h hfuture he (Nat.le_refl _) (fun j hj => (hfirst j hj).2) hend
        lia
      exact (filter_of_lt (run_of_late he hlate hending result) _).symm
    · exact hfirst.elim
    · obtain ⟨hcame', hbefore⟩ := hfirst
      have hk : k < 2 * (n + 1) := by
        by_contra hlt
        simp [cameAt, hlen, Nat.le_of_not_lt hlt] at hcame'
      rw [hcame hk] at hcame'
      obtain ⟨hle, hr⟩ := Option.ite_none_right_eq_some.mp hcame'
      cases hr
      -- at an earlier look of that instant or later the work would have been done as well
      have hready' : f.moment.now + k / 2 ≤ ready := by
        by_contra hlt
        have hk' : 2 * (ready - f.moment.now) < k := by lia
        have := (hbefore _ hk').1
        rw [hcame (hk'.trans hk), if_pos (by lia)] at this
        cases this
      have hnow : f.moment.now + k / 2 = ready := Nat.le_antisymm hready' hle
      have hrun := run_of_ready he (fun t e hend => hnow ▸
        ending_late h hfuture he hk.le (fun j hj => (hbefore j hj).2) hend) result
      rw [hrun, filter_of_le (by lia), ← hnow]
      rfl
    · obtain ⟨hk, hcame', hover, htells, hbefore⟩ := hfirst
      have hend := ending_of_overAt h hfuture he hk hover (fun j hj => (hbefore j hj).2) htells
      rw [hcame hk] at hcame'
      have hlt : f.moment.now + k / 2 < ready := by
        by_contra hle
        rw [if_pos (Nat.le_of_not_lt hle)] at hcame'
        cases hcame'
      have hrun : c.run f.moment future ready result = (f.moment.now + k / 2, .error e) := by
        simp only [run, he, hend]
        exact if_neg (Nat.not_le_of_lt hlt)
      rw [hrun, filter_of_le (by lia)]
      rfl

end

/-! ## Waiting and asking -/

theorem overAt_of_whole (hd : ∀ d, c.deadline = some d → d.alarm = d) (beats : List (Beat α))
    (k : Nat) : c.OverAt true f beats k ↔
      (c.error? (f.after (beats.take (k + 1))).moment).isSome := by
  have hr : c.rounded = c := by
    have : c.deadline.map Instant.alarm = c.deadline := by
      cases h : c.deadline with
      | none => rfl
      | some d => rw [Option.map_some, hd d h]
    simp [rounded, this]
  simp [OverAt, Noticed, hr]

/-- A wait ends at the first look at which the context is over, and never without one. At the first
look that is when the context says so; from then on a deadline counts from the time its alarm goes
off, which for a deadline at a whole millisecond is the same. The wait ends with the error that the
context has then, unless it was cancelled and the alarm went off between two looks. Work is refused
if the context is over before, is over with its own result if it is done no later than the wait is,
and is dropped otherwise. If there are looks at every instant, this is what `ending` and `run`
say. -/
theorem waits_as_asked (acts : List Family.Act) (i : Option Nat) (c : Context)
    (hc : (Family.run acts).context? i = some c) (beats : List (Beat α)) :
    let f := Family.run acts
    (match c.done f beats with
      | none => ∀ k < beats.length, ¬ c.OverAt true f beats k
      | some (k, e) => k < beats.length ∧ c.OverAt true f beats k ∧
          (∀ j < k, ¬ c.OverAt true f beats j) ∧ c.TellsAt true f beats k e) ∧
    (match c.drive f beats with
      | none => c.error? f.moment = none ∧
          ∀ k < beats.length, cameAt beats k = none ∧ ¬ c.OverAt true f beats k
      | some (.refused e) => c.error? f.moment = some e
      | some (.finished k r) => c.error? f.moment = none ∧ cameAt beats k = some r ∧
          ∀ j < k, cameAt beats j = none ∧ ¬ c.OverAt true f beats j
      | some (.dropped k e) => c.error? f.moment = none ∧ k < beats.length ∧
          cameAt beats k = none ∧ c.OverAt true f beats k ∧ c.TellsAt true f beats k e ∧
          ∀ j < k, cameAt beats j = none ∧ ¬ c.OverAt true f beats j) ∧
    ((∀ d, c.deadline = some d → d.alarm = d) → ∀ k, c.OverAt true f beats k ↔
      (c.error? (f.after (beats.take (k + 1))).moment).isSome) ∧
    ∀ (future : List Announced) (n : Nat), (∀ a ∈ future, f.moment.now ≤ a.instant) →
      (∀ came : Instant → Option (Except Error α),
        (c.done f (everyInstant f future came (n + 1))).map
            (fun (k, e) => (f.moment.now + k / 2, e)) =
          (c.ending f.moment future).filter (·.1 ≤ f.moment.now + n)) ∧
      ∀ (ready : Instant) (result : Except Error α), f.moment.now ≤ ready →
        let came := fun t => if ready ≤ t then some result else none
        (c.drive f (everyInstant f future came (n + 1))).map
            (Fate.timed f.moment.now) =
          (some (c.run f.moment future ready result)).filter (·.1 ≤ f.moment.now + n) := by
  intro f
  have h : Of f c := ⟨acts, i, rfl, hc⟩
  refine ⟨doneFrom_first h true beats, ?_, fun hd => overAt_of_whole hd beats,
    fun future n hfuture => ⟨fun came => done_everyInstant h hfuture came n,
      fun ready result hready => drive_everyInstant h hfuture hready result n⟩⟩
  have hdrive := driveFrom_first h true beats
  unfold drive
  cases he : c.error? f.moment with
  | some e => rfl
  | none =>
    dsimp only
    rcases hd : c.driveFrom true f beats with _ | e | ⟨k, r⟩ | ⟨k, e⟩ <;> rw [hd] at hdrive
    · exact ⟨rfl, hdrive⟩
    · exact hdrive.elim
    · exact ⟨rfl, hdrive⟩
    · exact ⟨rfl, hdrive⟩

/-- The handle of the parent is dropped while the child is waited for. -/
theorem waits_parent_dropped :
    let acts : List Family.Act := [.derive none (.deadline 10000000), .derive (some 0) .cancel]
    let f := Family.run acts
    let c : Context := ⟨some 10000000, [0, 1]⟩
    let beats : List (Beat Nat) := [{}, { acts := [.advance 3] }, { acts := [.drop 0] }, {}]
    f.context? (some 1) = some c ∧ c.done f beats = some (2, .cancelled) ∧
      c.OverAt true f beats 2 ∧ (∀ j < 2, ¬ c.OverAt true f beats j) ∧
      c.TellsAt true f beats 2 .cancelled := by
  intro acts f c beats
  have hc : f.context? (some 1) = some c := by decide
  have hd : c.done f beats = some (2, .cancelled) := by decide
  have h := (waits_as_asked acts (some 1) c hc beats).1
  rw [hd] at h
  exact ⟨hc, hd, h.2⟩

/-- Work that is done at the instant its context ends is not dropped, and a deadline within a
millisecond is not noticed before the next one begins. -/
theorem over_but_not_waited :
    (let f := Family.run [.derive none (.deadline 10000000)]
     let c : Context := ⟨some 10000000, [0]⟩
     let beats : List (Beat Nat) := [{}, { acts := [.advance 10000000], came := some (.ok 1) }]
     f.context? (some 0) = some c ∧ c.error? f.moment = none ∧
       c.error? (f.after beats).moment = some .deadlineExceeded ∧
       c.drive f beats = some (.finished 1 (.ok 1))) ∧
    (let f := Family.run [.derive none (.deadline 4200000)]
     let c : Context := ⟨some 4200000, [0]⟩
     let beats : List (Beat Nat) :=
       [{}, { acts := [.advance 4200000] }, { acts := [.advance 5000000] }]
     f.context? (some 0) = some c ∧
       c.error? (f.after (beats.take 2)).moment = some .deadlineExceeded ∧
       c.done f beats = some (2, .deadlineExceeded)) := by
  refine ⟨⟨by decide, by decide, by decide, rfl⟩, by decide, by decide, by decide⟩

end Context

end Courier
