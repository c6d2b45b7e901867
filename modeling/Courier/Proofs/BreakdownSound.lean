import Courier.Proofs.CapacitySound
import Courier.Proofs.FamilySound
import Courier.Proofs.TradeSound
import Courier.Proofs.WalkSound

/-!
# Nothing breaks down but for want of slots

Slots that are more than there can be cannot be made, and one that comes back
to as many free ones cannot be taken. A permit that comes back has to have been
counted. In a session the permits are balanced, so whatever comes back is taken
as long as the slots could be made (`run?_eq_run`). An exchange is balanced as
well, and a deadline is an instant however long a timeout is. So the only values
of a configuration that anything breaks down for are settings that ask for more
slots than there can be (`Config.unbroken_iff`).
-/

namespace Courier

/-- Whether a slot that comes back is handed on, or can be free. -/
def Slots.takesBack (s : Slots) : Bool := !s.waiting.isEmpty || decide (s.free < maximum)

theorem Slots.Lends.takesBack {s : Slots} {n k : Nat} {w : List Ticket} (h : s.Lends n k w)
    (hn : n ≤ maximum) (hk : 0 < k ∨ 0 < s.handed.length) : s.takesBack = true := by
  have := h.total
  simp only [Slots.takesBack, Bool.or_eq_true, decide_eq_true_eq]
  omega

/-! ## Sessions -/

namespace Lending

/-- What an action cannot be gone through with for. -/
inductive Breakdown where
  /-- A provider is to have more slots than there can be. -/
  | unmakeable
  /-- A permit comes back that was not counted. -/
  | uncounted
  /-- A slot comes back while there are as many free ones as there can be. -/
  | overfull
  deriving DecidableEq, Repr

def enter? (l : Lending) (p : ProviderId) : Option Breakdown :=
  if l.session.admits p then none else some .unmakeable

/-- What keeps a permit, or a place in line, from being given back. -/
def return? (l : Lending) (x : Loan) : Option Breakdown :=
  let e := l.session.entryOf x.provider
  match x.permit with
  | some false => none
  | some true =>
    if e.active = 0 then some .uncounted
    else if e.slots.all Slots.takesBack then none else some .overfull
  | none =>
    -- only a slot that was handed over comes back
    if e.slots.all fun s => x.ticket ∉ s.handed || s.takesBack then none else some .overfull

def breakdown? (l : Lending) : Action → Option Breakdown
  | .stop t => (l.loan? t).bind l.return?
  | a => (l.tracks a).bind l.enter?

def act? (l : Lending) (a : Action) : Except Breakdown (Lending × Answer) :=
  match l.breakdown? a with
  | some b => .error b
  | none => .ok (l.act a)

/-- Runs some actions, up to one that cannot be gone through with. -/
def run? (l : Lending) : List Action → Except Breakdown (Lending × List Answer)
  | [] => .ok (l, [])
  | a :: as =>
    match l.act? a with
    | .error b => .error b
    | .ok (l, b) => (l.run? as).map fun (l, bs) => (l, b :: bs)

variable {l : Lending} {a : Action} {p : ProviderId} {x : Loan} {t : Ticket}

/-! ### One action -/

theorem enter?_eq_none (h : l.session.limit p ≤ Slots.maximum) : l.enter? p = none := by
  refine if_pos ?_
  rw [Session.admits, Bool.or_eq_true, decide_eq_true_iff]
  exact .inr h

theorem Sound.return?_eq_none (h : l.Sound) (hx : x ∈ l.loans)
    (hl : l.session.limit x.provider ≤ Slots.maximum) : l.return? x = none := by
  have hb := h.kept.balanced x.provider
  have hm : x ∈ Loan.onProvider x.provider l.loans := List.mem_filter.2 ⟨hx, by simp⟩
  have hactive : (l.session.entryOf x.provider).active =
      Loan.permits (Loan.onProvider x.provider l.loans) := hb.active
  have hslots {s : Slots} (hs : (l.session.entryOf x.provider).slots = some s) :
      s.Lends (l.session.limit x.provider) (Loan.permits (Loan.onProvider x.provider l.loans))
        (Loan.waiters (Loan.onProvider x.provider l.loans)) := by
    have hc : Account.Covers _ _ (l.session.entryOf x.provider).slots := hb.slots
    rw [hs] at hc
    exact hc.2
  unfold return?
  cases hp : x.permit with
  | none =>
    refine if_pos ((Option.all_eq_true _ _).2 fun s hs => ?_)
    by_cases ht : x.ticket ∈ s.handed
    · simp [(hslots hs).takesBack hl (.inr (List.length_pos_of_mem ht))]
    · simp [ht]
  | some held =>
    cases held with
    | false => exact absurd hp (h.kept.real x hx)
    | true =>
      have hpos : 0 < Loan.permits (Loan.onProvider x.provider l.loans) :=
        List.countP_pos_iff.2 ⟨x, hm, by simp [hp]⟩
      refine (if_neg (by omega)).trans (if_pos ((Option.all_eq_true _ _).2 fun s hs => ?_))
      exact (hslots hs).takesBack hl (.inl hpos)

theorem Still.return?_eq_none (h : l.Still) (hx : x ∈ l.loans) : l.return? x = none := by
  simp [return?, h.unlimited x hx]

theorem Steady.breakdown?_eq_none (h : l.Steady) (hl : ∀ p, l.session.limit p ≤ Slots.maximum)
    (a : Action) : l.breakdown? a = none := by
  have henter : (l.tracks a).bind l.enter? = none :=
    Option.bind_eq_none_iff.2 fun p _ => enter?_eq_none (hl p)
  cases a with
  | stop t =>
    refine Option.bind_eq_none_iff.2 fun x hx => ?_
    have hx : x ∈ l.loans := List.mem_of_find?_eq_some hx
    exact h.elim (fun h => h.return?_eq_none hx (hl _)) (fun h => h.return?_eq_none hx)
  | start | resume | success | failure | sort => exact henter

/-! ### Whole runs -/

theorem Touches.policy {s : Session} (ht : Touches l a s) : s.policy = l.session.policy := by
  cases ht with
  | nothing => rfl
  | entry => exact Session.put_policy _

theorem Steady.run?_eq (h : l.Steady) (hl : ∀ p, l.session.limit p ≤ Slots.maximum)
    (as : List Action) : l.run? as = .ok (l.run as) := by
  induction as generalizing l with
  | nil => rfl
  | cons a as ih =>
    have hs : ∀ p, (l.act a).1.session.limit p ≤ Slots.maximum := by
      intro p
      rw [Session.limit, (act_touches l a).policy]
      exact hl p
    simp only [run?, act?, h.breakdown?_eq_none hl a, ih (h.act a) hs]
    rfl

/-- A session whose policy asks for slots there can be goes through with everything. -/
theorem run?_eq_run (policy : Policy) (live : Bool) (capacity : Option Nat)
    (hp : ∀ p, (policy.configOf p).limit.toNat ≤ Slots.maximum) (as : List Action) :
    let l : Lending := { session := { policy, live, capacity } }
    l.run? as = .ok (l.run as) :=
  (steady_opened policy live capacity).run?_eq hp as

/-- A record that cannot have an entry is the end of a run. -/
theorem run?_unmakeable (hl : l.session.admits p = false) (as : List Action) :
    l.run? (.failure p :: as) = .error .unmakeable := by
  have hb : l.breakdown? (.failure p) = some .unmakeable := by
    simp [breakdown?, tracks, enter?, hl]
  simp only [run?, act?, hb]

/-! ### Counts -/

/-- No more is on a record than was put there. -/
def Counted (l : Lending) (n : Nat) : Prop :=
  ∀ p, (l.session.entryOf p).successes + (l.session.entryOf p).failures ≤ n

theorem Action.enter_le (a : Action) (p : ProviderId) (r : Record) :
    (a.enter p r).successes + (a.enter p r).failures ≤ r.successes + r.failures + 1 := by
  cases a with
  | success | failure =>
    simp only [enter]
    split
    · dsimp only
      omega
    · exact Nat.le_succ _
  | start | resume | stop | sort => exact Nat.le_succ _

theorem Counted.act {n : Nat} (h : l.Counted n) (hl : l.Tallied) (a : Action) :
    (l.act a).1.Counted (n + 1) := by
  intro p
  cases he : (l.act a).1.session.entry? p with
  | none =>
    have hnew : (l.act a).1.session.entryOf p = .fresh _ := congrArg (Option.getD · _) he
    rw [hnew]
    exact Nat.zero_le _
  | some e =>
    have hr := (act_touches l a).record_eq hl he
    have hle := a.enter_le p (l.session.entryOf p).record
    rw [← hr] at hle
    rw [Session.entryOf_of_some he]
    exact hle.trans (Nat.succ_le_succ (h p))

theorem Counted.run {n : Nat} (h : l.Counted n) (hl : l.Steady) (as : List Action) :
    (l.run as).1.Counted (n + as.length) := by
  induction as generalizing l n with
  | nil => exact h
  | cons a as ih =>
    have hrest := ih (h.act hl.tallied a) (hl.act a)
    rwa [Nat.add_right_comm] at hrest

end Lending

/-! ## Exchanges -/

namespace Exchange

variable {x : Exchange} {n : Nat} {c : Config}

theorem ofConfig?_isSome : (ofConfig? c).isSome ↔ max 1 c.concurrency.toNat ≤ Slots.maximum := by
  simp only [ofConfig?, Slots.ofSize?]
  split
  · next h => exact iff_of_true rfl h
  · next h => exact iff_of_false Bool.false_ne_true h

theorem Sound.step_width (h : x.Sound n) (a : Action) : (x.step a).1.width = x.width :=
  (h.run [a]).2

/-- Neither the shared slots nor those of a walk are ever more than there can be. -/
theorem run_free_le (h : ofConfig? c = some x) (as : List Action) :
    let y := (x.run as).1
    y.shared.free ≤ Slots.maximum ∧ ∀ k w, y.walk? k = some w → w.own.free ≤ Slots.maximum := by
  intro y
  obtain ⟨hy, hw⟩ : y.Sound _ ∧ y.width = x.width := (sound_ofConfig h).run as
  refine ⟨?_, fun k w hk => ?_⟩
  · have hmax := ofConfig?_isSome.1 (Option.isSome_of_eq_some h)
    have := hy.shared.total
    omega
  · cases ha : x.admits with
    | true =>
      have hmax : x.width ≤ Slots.maximum := of_decide_eq_true ha
      have := (hy.own_of_walk hk).total
      omega
    | false =>
      -- no walk ever began
      have hnone : x.walks = [] := by rw [ofConfig?_eq h]
      have hidle : y = x := congrArg (·.1) (Quest.run_idle (sound_ofConfig h).toTidy hnone ha as)
      rw [hidle, walk?, hnone] at hk
      cases hk

end Exchange

/-! ## Retrievals over an exchange -/

namespace Trade

variable {t : Trade} {s : State} {x : Exchange} {n : Nat}

theorem enter_crashed (h : (t.enter s).stage = .crashed) : s.exchange.admits = false := by
  unfold enter at h
  simp only at h
  split at h
  · cases h
  · split at h
    · cases h
    · next ha => exact Bool.eq_false_iff.2 ha

theorem look_crashed {k : Exchange.Key} (h : (t.look s k).stage = .crashed) :
    s.stage = .crashed := by
  unfold look at h
  split at h
  · exact h
  · cases h

theorem heed_crashed {k : Exchange.Key} {began : Instant} {a : Exchange.Action}
    (h : (t.heed s k began a).stage = .crashed) : s.stage = .crashed := by
  unfold heed at h
  simp only at h
  split at h
  · exact h
  · cases h
  · cases h

theorem next_crashed {g : Glance Deed} (h : (t.next s g).stage = .crashed) :
    s.stage = .crashed ∨ s.exchange.admits = false := by
  unfold Trade.next at h
  simp only at h
  split at h
  · exact .inr (enter_crashed (s := { s with moment := s.moment.after g }) h)
  · exact .inl (look_crashed (s := { s with moment := s.moment.after g }) h)
  · split at h
    · exact .inl (heed_crashed (s := { s with moment := s.moment.after g }) h)
    · exact .inl h
  · obtain ⟨x, hx, -⟩ := stand_eq { s with moment := s.moment.after g } g.came
    rw [hx] at h
    exact .inl h

theorem run_admits (hx : x.Sound n) (ha : x.admits = true) (t : Trade) (m : Moment)
    (gs : List (Glance Deed)) :
    let s := t.run m x gs
    s.exchange.Sound n ∧ s.exchange.admits = true ∧ s.stage ≠ .crashed := by
  induction gs using List.reverseRecOn with
  | nil => exact ⟨hx, ha, nofun⟩
  | append_singleton gs g ih =>
    obtain ⟨hs, hadm, hlive⟩ := ih
    have hcrash : (t.next (t.run m x gs) g).stage ≠ .crashed := by
      intro h
      rcases next_crashed h with h | h
      · exact hlive h
      · exact absurd (hadm.symm.trans h) nofun
    rw [run_snoc]
    rcases (next_moves t (t.run m x gs) g).2 with he | ⟨a, he⟩
    · exact ⟨he ▸ hs, he ▸ hadm, hcrash⟩
    · refine ⟨he ▸ hs.step a, ?_, hcrash⟩
      rw [he, Exchange.admits, hs.step_width a]
      exact hadm

/-- A retrieval whose walk cannot have its slots crashes when it would begin. -/
theorem run_crashed (ha : x.admits = false) (root : Cid) (l : List Candidate) (m : Moment) :
    (Trade.run ⟨root, l, .background⟩ m x [{}]).stage = .crashed := by
  simp [Trade.run, Trade.next, enter, Context.error?, Context.background, ha]

theorem uncrashed_iff {c : Config} (hx : Exchange.ofConfig? c = some x) :
    (∀ as (t : Trade) m gs, (t.run m (x.run as).1 gs).stage ≠ .crashed) ↔ x.admits = true := by
  constructor
  · intro h
    by_contra hn
    exact h [] _ {} [{}] (run_crashed (Bool.eq_false_iff.2 hn) ⟨[]⟩ [] {})
  · intro ha as t m gs
    obtain ⟨hy, hw⟩ := (Exchange.sound_ofConfig hx).run as
    refine (run_admits hy ?_ t m gs).2.2
    rw [Exchange.admits, hw]
    exact ha

end Trade

/-! ## Deadlines -/

namespace Family

variable {acts : List Act} {m : Member} {i : Nat} {t : Instant}

/-- A member comes of a derivation. -/
theorem derived_of_mem (hm : m ∈ (run acts).members) : .derive m.parent m.way ∈ acts := by
  induction acts using List.reverseRecOn generalizing m with
  | nil => cases hm
  | append_singleton acts a ih =>
    rw [List.mem_append, List.mem_singleton]
    rw [run_snoc] at hm
    cases a with
    | derive p way =>
      cases hc : (run acts).context? p with
      | none =>
        simp only [act, derive, hc] at hm
        exact .inl (ih hm)
      | some c =>
        rw [act, derive_eq hc] at hm
        rcases List.mem_append.1 hm with hm | hm
        · exact .inl (ih hm)
        · rw [List.mem_singleton.1 hm]
          exact .inr rfl
    | advance t => exact .inl (ih hm)
    | cancel j =>
      rw [act, cancel_members] at hm
      exact .inl (ih hm)
    | drop j =>
      obtain ⟨k, hk⟩ := List.mem_iff_getElem?.1 hm
      rw [act, drop_members, Option.map_eq_some_iff] at hk
      obtain ⟨n, hn, rfl⟩ := hk
      have := ih (List.mem_of_getElem? hn)
      split <;> exact .inl this

/-- A deadline is an instant, unless one that is not was given. -/
theorem run_instants (hm : (run acts).members[i]? = some m) (ht : m.context.deadline = some t)
    (hacts : ∀ p u, .derive p (.deadline u) ∈ acts → u < Instant.limit) : t < Instant.limit := by
  have he := (run_linked acts).earliest hm
  rw [ht] at he
  obtain ⟨j, n, -, hn, hr⟩ := he.1
  have hd := derived_of_mem (List.mem_of_getElem? hn)
  cases hw : n.way with
  | cancel => simp [Member.requested, Way.requested, hw] at hr
  | timeout d =>
    simp only [Member.requested, Way.requested, hw, Instant.add?, Option.ite_none_right_eq_some,
      Option.some.injEq] at hr
    exact hr.2 ▸ hr.1
  | deadline u =>
    rw [hw] at hd
    simp only [Member.requested, Way.requested, hw, Option.some.injEq] at hr
    exact hr ▸ hacts _ _ hd

end Family

/-! ## Configurations -/

namespace Config

/-- There can be as many slots as the default says, so it is the setting that decides. -/
theorem filled_le_iff {n d : UInt64} (hd : d.toNat ≤ Slots.maximum) :
    max 1 (if n = 0 then d else n).toNat ≤ Slots.maximum ↔ n.toNat ≤ Slots.maximum := by
  have hone : 1 ≤ Slots.maximum := by decide
  split
  · next hn => subst hn; simpa [hone] using hd
  · simp [hone]

/-- A session goes through with everything, there is an exchange, and no retrieval over it crashes,
each exactly if its setting is a number of slots there can be. Whatever the settings are, records
have no more on them than was put there, and a deadline that comes of a timeout is an instant. -/
theorem unbroken_iff (c : Config) :
    let d := c.setDefaults
    ((∀ live capacity as, let l : Lending := { session := { policy := d.policy, live, capacity } }
        l.run? as = .ok (l.run as)) ↔ c.concurrentRetrievals.toNat ≤ Slots.maximum) ∧
    (∀ live capacity as p,
      let l : Lending := { session := { policy := d.policy, live, capacity } }
      let e := (l.run as).1.session.entryOf p
      e.successes + e.failures ≤ as.length) ∧
    ((Exchange.ofConfig? d).isSome ↔ c.concurrency.toNat ≤ Slots.maximum) ∧
    (∀ x, Exchange.ofConfig? d = some x →
      ((∀ as (t : Trade) m gs, (t.run m (x.run as).1 gs).stage ≠ .crashed) ↔
        c.concurrencyPerRetrieval.toNat ≤ Slots.maximum) ∧
      ∀ as, let y := (x.run as).1
        y.shared.free ≤ Slots.maximum ∧
          ∀ k w, y.walk? k = some w → w.own.free ≤ Slots.maximum) ∧
    ∀ acts (i : Nat) m t, (Family.run acts).members[i]? = some m → m.context.deadline = some t →
      (∀ p u, .derive p (.deadline u) ∈ acts → u < Instant.limit) → t < Instant.limit := by
  intro d
  refine ⟨⟨fun h => ?_, fun h live capacity => ?_⟩, ?_, ?_, ?_, ?_⟩
  · by_contra hn
    let l : Lending := { session := { policy := d.policy } }
    have hadm : l.session.admits ⟨[]⟩ = false := by
      rw [Session.admits, Bool.or_eq_false_iff, decide_eq_false_iff_not]
      exact ⟨rfl, hn⟩
    have hrun : l.run? [.failure ⟨[]⟩] = .ok _ := h true (some 4096) [.failure ⟨[]⟩]
    rw [Lending.run?_unmakeable hadm] at hrun
    cases hrun
  · exact Lending.run?_eq_run _ live capacity fun _ => h
  · intro live capacity as p l e
    have hcount := Lending.Counted.run (l := l) (n := 0) (fun _ => Nat.le_refl 0)
      (Lending.steady_opened d.policy live capacity) as p
    rwa [Nat.zero_add] at hcount
  · rw [Exchange.ofConfig?_isSome]
    exact filled_le_iff (by decide)
  · intro x hx
    refine ⟨?_, Exchange.run_free_le hx⟩
    rw [Trade.uncrashed_iff hx, Exchange.admits, Exchange.ofConfig?_eq hx, decide_eq_true_iff]
    exact filled_le_iff (by decide)
  · intro acts i m t hm ht hacts
    exact Family.run_instants hm ht hacts

/-- One more slot than there can be, at each of the three places. -/
theorem breaks_down :
    let n : UInt64 := 2305843009213693952
    let policy := ({ concurrentRetrievals := n } : Config).setDefaults.policy
    Lending.run? { session := { policy } } [.start ⟨[1]⟩ 0] = .error .unmakeable ∧
      (Exchange.ofConfig? ({ concurrency := n } : Config).setDefaults).isNone ∧
      ∃ x, Exchange.ofConfig? ({ concurrencyPerRetrieval := n } : Config).setDefaults = some x ∧
        (Trade.run ⟨⟨[0]⟩, [], .background⟩ {} x [{}]).stage = .crashed :=
  ⟨rfl, rfl, _, rfl, rfl⟩

end Config

end Courier
