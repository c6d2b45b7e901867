import Courier.Proofs.LedgerSound
import Courier.Proofs.TableLemmas

/-!
# A session keeps the ledger

A live session with its loans stands for a ledger: a provider without an entry
has the account of a new one. Forgetting idle entries does not change that
ledger, since an account nobody holds is as good as new. So the permits of a
session are balanced (`run_balanced`), and come out the same however few
providers its table has room for (`run_unbounded`).
-/

namespace Courier

namespace Entry

def account (e : Entry) : Account := ⟨e.slots, e.active, e.holders⟩

/-- The entry with another account and the same record. -/
def keeping (e : Entry) (a : Account) : Entry :=
  { e with slots := a.slots, active := a.active, holders := a.holders }

theorem account_fresh (limit : UInt64) : (fresh limit).account = Account.fresh limit.toNat := by
  have h : limit = 0 ↔ limit.toNat = 0 := by
    rw [← UInt64.toNat_inj]; rfl
  simp only [fresh, account, Account.fresh, h]

end Entry

/-! ## Accounts of a session -/

namespace Session

def limit (s : Session) (p : ProviderId) : Nat := (s.policy.configOf p).limit.toNat

def account (s : Session) (p : ProviderId) : Account := (s.entryOf p).account

variable {s : Session} {p : ProviderId} {t : Ticket}

theorem account_of_some {e : Entry} (h : s.entry? p = some e) : s.account p = e.account := by
  simp [account, entryOf, h]

theorem account_of_none (h : s.entry? p = none) : s.account p = Account.fresh (s.limit p) := by
  simp only [account, entryOf, h]
  exact Entry.account_fresh _

theorem active_eq (s : Session) (p : ProviderId) : s.active p = (s.account p).active := by
  cases h : s.entry? p with
  | none => simp [account_of_none h, active, h, Account.fresh]
  | some e => simp [account_of_some h, active, h, Entry.account]

theorem isBusy_iff {e : Entry} (h : s.entry? p = some e) :
    e.isBusy = true ↔ (s.account p).holders ≠ 0 := by
  rw [account_of_some h]
  simp [Entry.isBusy, Entry.account, Nat.pos_iff_ne_zero]

theorem account_put (hd : s.Distinct)
    (hf : ∀ q, (s.account q).holders = 0 → s.account q = Account.fresh (s.limit q)) (e : Entry) :
    (s.put p e).account = Function.update s.account p e.account := by
  funext q
  by_cases hq : q = p
  · subst hq
    rw [account_of_some (entry?_put_self e), Function.update_self]
  · rw [Function.update_of_ne hq]
    rcases entry?_put_ne e hd hq with h | ⟨h, e', he, hb⟩
    · simp [account, entryOf, h]
    · -- the entry was forgotten: nobody held it, so its account was that of a new one
      have hb : (s.account q).holders = 0 := by
        by_contra hh
        simp [(isBusy_iff he).2 hh] at hb
      rw [account_of_none h, hf q hb, limit, put_policy]
      rfl

/-! ### Operations in terms of accounts -/

theorem acquire_eq (h : s.live = true) (p : ProviderId) (t : Ticket) :
    s.acquire p t = (s.put p ((s.entryOf p).keeping ((s.account p).acquire t).1),
      ((s.account p).acquire t).2) := by
  have ht : s.track p = ((s.track p).1, s.entryOf p) := Prod.ext rfl track_entry
  unfold acquire Account.acquire
  rw [if_pos h, ht]
  cases hs : (s.entryOf p).slots with
  | none => simp [account, Entry.account, hs, put, Entry.keeping]
  | some slots =>
    simp only [account, Entry.account, hs]
    rcases slots.acquire t with ⟨slots', _ | _⟩ <;> rfl

theorem resume?_eq {e : Entry} (h : s.entry? p = some e) (t : Ticket) :
    s.resume? p t = ((s.account p).resume? t).map fun a => s.put p (e.keeping a) := by
  rw [account_of_some h]
  unfold resume? Account.resume?
  cases hs : e.slots with
  | none => simp [h, hs, Entry.account]
  | some slots =>
    cases hr : slots.resume? t with
    | none => simp [h, hs, hr, Entry.account]
    | some slots' => simp [h, hs, hr, Entry.account, put_of_some _ h, Entry.keeping]

theorem release_eq {e : Entry} (h : s.entry? p = some e) :
    s.release p = (s.put p (e.keeping (s.account p).release.1), (s.account p).release.2) := by
  rw [account_of_some h, put_of_some _ h]
  unfold release Account.release
  cases hs : e.slots <;> simp [h, hs, Entry.account, Entry.keeping]

theorem abandon_eq {e : Entry} (h : s.entry? p = some e) (t : Ticket) :
    s.abandon p t =
      (s.put p (e.keeping ((s.account p).abandon t).1), ((s.account p).abandon t).2) := by
  rw [account_of_some h, put_of_some _ h]
  unfold abandon Account.abandon
  cases hs : e.slots <;> simp [h, hs, Entry.account, Entry.keeping]

theorem modify_eq (f : Entry → Entry) : s.modify p f = s.put p (f (s.entryOf p)) := by
  rw [← track_entry]; rfl

end Session

/-! ## Runs -/

namespace Lending

open Loan

def opened (policy : Policy) (capacity : Option Nat) : Lending :=
  { session := { policy, capacity } }

def act (l : Lending) : Action → Lending × Answer
  | .start p t =>
    if (l.loan? t).isSome then (l, .silent) else ((l.start p t).1, .asked (l.start p t).2)
  | .resume t =>
    match l.resume? t with
    | some l => (l, .resumed)
    | none => (l, .silent)
  | .stop t => ((l.stop t).1, .passed (l.stop t).2)
  | .success p elapsed => (l.recordSuccess p elapsed, .silent)
  | .failure p => (l.recordFailure p, .silent)
  | .sort cs => (l, .ranked (l.session.sortCandidates cs))

def run (l : Lending) : List Action → Lending × List Answer
  | [] => (l, [])
  | a :: as => (((l.act a).1.run as).1, (l.act a).2 :: ((l.act a).1.run as).2)

def subject (l : Lending) : Action → Option ProviderId
  | .start p _ => some p
  | .resume t => (l.loan? t).map (·.provider)
  | .stop t => (l.loan? t).map (·.provider)
  | .success p _ => some p
  | .failure p => some p
  | .sort _ => none

/-- What an answer says of permits. -/
def Answer.control : Answer → Answer
  | .ranked _ => .silent
  | a => a

/-- The ledger a session and its loans stand for. -/
def ledger (l : Lending) : Ledger := ⟨l.session.account, l.loans⟩

/-- What holds of a live session with its loans, whatever was done with them. -/
structure Sound (l : Lending) : Prop where
  live : l.session.live = true
  distinct : l.session.Distinct
  kept : l.ledger.Kept l.session.limit

variable {l : Lending} {p : ProviderId} {t : Ticket} {x : Loan}

theorem opened_ledger (policy : Policy) (capacity : Option Nat) :
    (opened policy capacity).ledger = .opened fun p => (policy.configOf p).limit.toNat := by
  simp only [ledger, Ledger.opened, Ledger.mk.injEq]
  exact ⟨funext fun p => Session.account_of_none rfl, rfl⟩

theorem sound_opened (policy : Policy) (capacity : Option Nat) :
    (opened policy capacity).Sound := by
  refine ⟨rfl, List.nodup_nil, ?_⟩
  rw [opened_ledger]
  exact Ledger.kept_opened _

/-! ### One action -/

/-- An account nobody holds is as good as new. -/
theorem Sound.idle (h : l.Sound) (p : ProviderId) (hp : (l.session.account p).holders = 0) :
    l.session.account p = Account.fresh (l.session.limit p) := by
  have hb := h.kept.balanced p
  have hn : onProvider p l.loans = [] := List.eq_nil_of_length_eq_zero (hb.holders ▸ hp)
  exact Account.Balanced.eq_fresh (hn ▸ hb)

/-- Whoever waits for a permit or has one keeps the entry in the table. -/
theorem Sound.entry (h : l.Sound) (hx : x ∈ l.loans) :
    ∃ e, l.session.entry? x.provider = some e ∧ e.isBusy = true := by
  have hb := (h.kept.balanced x.provider).holders
  have hm : x ∈ onProvider x.provider l.loans := List.mem_filter.2 ⟨hx, by simp⟩
  have hpos : (l.session.account x.provider).holders ≠ 0 := by
    have := List.length_pos_of_mem hm
    change (l.session.account x.provider).holders = _ at hb
    change 0 < (onProvider x.provider l.ledger.loans).length at this
    omega
  cases he : l.session.entry? x.provider with
  | none =>
    rw [Session.account_of_none he] at hpos
    exact absurd rfl hpos
  | some e => exact ⟨e, rfl, (Session.isBusy_iff he).2 hpos⟩

theorem Sound.ledger_put (h : l.Sound) (p : ProviderId) (e : Entry) (loans : List Loan) :
    ledger ⟨l.session.put p e, loans⟩ =
      ⟨Function.update l.session.account p e.account, loans⟩ := by
  rw [ledger, Session.account_put h.distinct h.idle]

theorem start_eq (h : l.Sound) (p : ProviderId) (t : Ticket) :
    l.start p t =
      (⟨l.session.put p ((l.session.entryOf p).keeping ((l.session.account p).acquire t).1),
        l.loans ++ [⟨t, p, ((l.session.account p).acquire t).2.permit⟩]⟩,
        ((l.session.account p).acquire t).2) := by
  unfold start
  rw [Session.acquire_eq h.live]
  rfl

theorem resume?_eq (hx : l.loan? t = some x) {e : Entry}
    (he : l.session.entry? x.provider = some e) :
    l.resume? t = if x.permit.isSome then none else
      ((l.session.account x.provider).resume? t).map fun a =>
        ⟨l.session.put x.provider (e.keeping a),
          l.loans.map fun y => if y.ticket = t then { y with permit := some true } else y⟩ := by
  unfold resume?
  simp only [hx, Option.bind_eq_bind, Option.bind_some, Session.resume?_eq he]
  split
  · rfl
  · cases (l.session.account x.provider).resume? t <;> rfl

theorem stop_eq (h : l.Sound) (hx : l.loan? t = some x) {e : Entry}
    (he : l.session.entry? x.provider = some e) :
    l.stop t =
      let a := l.session.account x.provider
      let r := if x.permit.isSome then a.release else a.abandon t
      (⟨l.session.put x.provider (e.keeping r.1), l.settle t⟩, r.2) := by
  unfold stop
  rw [hx]
  dsimp only
  cases hp : x.permit with
  | none => simp only [Session.abandon_eq he]; rfl
  | some b =>
    cases b with
    | true => simp only [Session.release_eq he]; rfl
    | false => exact absurd hp (h.kept.real x (List.mem_of_find?_eq_some hx))

/-- The session an action leaves: as it was, or with one entry of its provider put in place. -/
theorem act_session (h : l.Sound) (a : Action) :
    (l.act a).1.session = l.session ∨
      ∃ p e, l.subject a = some p ∧ (l.act a).1.session = l.session.put p e := by
  cases a with
  | start p t =>
    simp only [act]; split
    · exact .inl rfl
    · rw [start_eq h]
      exact .inr ⟨p, _, rfl, rfl⟩
  | resume t =>
    simp only [act, subject]
    cases hx : l.loan? t with
    | none => exact .inl (by simp [resume?, hx])
    | some x =>
      obtain ⟨e, he, -⟩ := h.entry (List.mem_of_find?_eq_some hx)
      rw [resume?_eq hx he]
      split
      · next l' hl =>
        split at hl
        · cases hl
        · obtain ⟨a, -, rfl⟩ := Option.map_eq_some_iff.1 hl
          exact .inr ⟨x.provider, _, rfl, rfl⟩
      · exact .inl rfl
  | stop t =>
    simp only [act, subject]
    cases hx : l.loan? t with
    | none => exact .inl (by simp [stop, hx])
    | some x =>
      obtain ⟨e, he, -⟩ := h.entry (List.mem_of_find?_eq_some hx)
      rw [stop_eq h hx he]
      exact .inr ⟨x.provider, _, rfl, rfl⟩
  | success p elapsed =>
    refine .inr ⟨p, ?_⟩
    simp only [act, recordSuccess, Session.recordSuccess, Session.modify_eq]
    exact ⟨_, rfl, rfl⟩
  | failure p =>
    refine .inr ⟨p, ?_⟩
    simp only [act, recordFailure, Session.recordFailure, Session.modify_eq]
    exact ⟨_, rfl, rfl⟩
  | sort cs => exact .inl rfl

theorem ledger_record (h : l.Sound) (f : Entry → Entry) (hf : ∀ e, (f e).account = e.account) :
    ledger { l with session := l.session.modify p f } = l.ledger := by
  rw [Session.modify_eq, h.ledger_put, hf]
  exact congrArg (Ledger.mk · l.loans) (Function.update_eq_self p _)

def Follows (l : Lending) (a : Action) : Prop :=
  (l.act a).1.ledger = (l.ledger.act a).1 ∧ (l.act a).2.control = (l.ledger.act a).2

theorem follows_start (h : l.Sound) (p : ProviderId) (t : Ticket) : l.Follows (.start p t) := by
  unfold Follows
  cases ht : l.loan? t with
  | some x =>
    have hg : l.ledger.loans.find? (·.ticket = t) = some x := ht
    simp [act, Ledger.act, Ledger.start, ht, hg, Answer.control]
  | none =>
    have hg : l.ledger.loans.find? (·.ticket = t) = none := ht
    simp only [act, start_eq h, Ledger.act, Ledger.start, ht, hg]
    exact ⟨h.ledger_put _ _ _, rfl⟩

theorem follows_resume (h : l.Sound) (t : Ticket) : l.Follows (.resume t) := by
  unfold Follows
  cases hx : l.loan? t with
  | none =>
    have hg : l.ledger.loans.find? (·.ticket = t) = none := hx
    simp [act, resume?, Ledger.act, Ledger.resume, hx, hg, Answer.control]
  | some x =>
    have hg : l.ledger.loans.find? (·.ticket = t) = some x := hx
    obtain ⟨e, he, -⟩ := h.entry (List.mem_of_find?_eq_some hx)
    simp only [act, resume?_eq hx he, Ledger.act, Ledger.resume, hg]
    by_cases hp : x.permit.isSome
    · simp [hp, Answer.control]
    · cases ha : (l.session.account x.provider).resume? t with
      | none =>
        have ha' : (l.ledger.accounts x.provider).resume? t = none := ha
        simp [hp, ha', Answer.control]
      | some a =>
        have ha' : (l.ledger.accounts x.provider).resume? t = some a := ha
        simp only [hp, ha', Option.map_some]
        exact ⟨h.ledger_put _ _ _, rfl⟩

theorem follows_stop (h : l.Sound) (t : Ticket) : l.Follows (.stop t) := by
  unfold Follows
  cases hx : l.loan? t with
  | none =>
    have hg : l.ledger.loans.find? (·.ticket = t) = none := hx
    simp [act, stop, Ledger.act, Ledger.stop, hx, hg, Answer.control]
  | some x =>
    have hg : l.ledger.loans.find? (·.ticket = t) = some x := hx
    obtain ⟨e, he, -⟩ := h.entry (List.mem_of_find?_eq_some hx)
    simp only [act, stop_eq h hx he, Ledger.act, Ledger.stop, hg]
    exact ⟨h.ledger_put _ _ _, rfl⟩

theorem follows (h : l.Sound) (a : Action) : l.Follows a := by
  cases a with
  | start p t => exact follows_start h p t
  | resume t => exact follows_resume h t
  | stop t => exact follows_stop h t
  | success p elapsed => exact ⟨ledger_record h _ fun _ => rfl, rfl⟩
  | failure p => exact ⟨ledger_record h _ fun _ => rfl, rfl⟩
  | sort cs => exact ⟨rfl, rfl⟩

theorem Sound.act (h : l.Sound) (a : Action) :
    (l.act a).1.Sound ∧ (l.act a).1.session.limit = l.session.limit := by
  -- the ledger of the session it leaves is one an action of the ledger leaves
  have hk : (l.act a).1.ledger.Kept l.session.limit := by
    rw [(follows h a).1]
    exact h.kept.act a
  rcases act_session h a with hs | ⟨p, e, -, hs⟩
  · refine ⟨⟨?_, ?_, ?_⟩, ?_⟩ <;> rw [hs]
    · exact h.live
    · exact h.distinct
    · exact hk
  · have hl : (l.act a).1.session.limit = l.session.limit := by
      funext q; rw [hs, Session.limit, Session.put_policy]; rfl
    refine ⟨⟨?_, ?_, ?_⟩, hl⟩
    · rw [hs, Session.put_live]; exact h.live
    · rw [hs]; exact Session.distinct_put e h.distinct
    · rw [hl]; exact hk

/-! ### Whole runs -/

theorem run_follows (h : l.Sound) (as : List Action) :
    (l.run as).1.Sound ∧ (l.run as).1.session.limit = l.session.limit ∧
      (l.run as).1.ledger = (l.ledger.run as).1 ∧
      (l.run as).2.map Answer.control = (l.ledger.run as).2 := by
  induction as generalizing l with
  | nil => exact ⟨h, rfl, rfl, rfl⟩
  | cons a as ih =>
    obtain ⟨hl, hb⟩ := follows h a
    obtain ⟨ha, hlimit⟩ := h.act a
    obtain ⟨h₁, h₂, h₃, h₄⟩ := ih ha
    rw [hl] at h₃ h₄
    refine ⟨h₁, h₂.trans hlimit, h₃, ?_⟩
    simp only [run, Ledger.run, List.map_cons, hb, h₄]

theorem run_opened (policy : Policy) (capacity : Option Nat) (as : List Action) :
    ((opened policy capacity).run as).1.Sound ∧
      ((opened policy capacity).run as).1.session.limit = (opened policy capacity).session.limit :=
  have h := run_follows (sound_opened policy capacity) as
  ⟨h.1, h.2.1⟩

/-- The slots of a provider are all accounted for, whatever was done with a session before, and none
is free while anybody is in line. Its entry stays in the table as long as anybody has a permit or
waits for one. -/
theorem run_balanced (policy : Policy) (capacity : Option Nat) (as : List Action)
    (p : ProviderId) :
    let l := ((opened policy capacity).run as).1
    let loans := onProvider p l.loans
    let n := (policy.configOf p).limit.toNat
    l.session.active p = permits loans ∧
      (∀ x ∈ loans, x.permit.isSome → 0 < l.session.active p) ∧
      (loans ≠ [] → ∃ e, l.session.entry? p = some e ∧ e.holders = loans.length) ∧
      (n = 0 → waiters loans = []) ∧
      (n ≠ 0 → l.session.active p ≤ n ∧ ∃ s, (l.session.entryOf p).slots = some s ∧
        s.free + s.handed.length + permits loans = n ∧
        (s.waiting ++ s.handed).Perm (waiters loans) ∧ (s.free = 0 ∨ s.waiting = [])) := by
  intro l loans n
  obtain ⟨h, hlimit⟩ := run_opened policy capacity as
  have hb : (l.session.account p).Balanced n loans := by
    have := h.kept.balanced p
    rwa [hlimit] at this
  have active : l.session.active p = permits loans := (Session.active_eq _ _).trans hb.active
  have hs := hb.slots
  refine ⟨active, ?_, ?_, ?_, ?_⟩
  · intro x hx hp
    rw [active]
    exact List.countP_pos_iff.2 ⟨x, hx, hp⟩
  · intro hne
    obtain ⟨x, hx⟩ := List.exists_mem_of_ne_nil _ hne
    obtain ⟨hx', hp⟩ := List.mem_filter.1 hx
    obtain ⟨e, he, -⟩ := h.entry hx'
    rw [of_decide_eq_true hp] at he
    have := hb.holders
    rw [Session.account_of_some he] at this
    exact ⟨e, he, this⟩
  · intro hn
    cases hc : (l.session.account p).slots with
    | none => rw [hc] at hs; exact hs.2
    | some s => rw [hc] at hs; exact absurd hn hs.1
  · intro hn
    cases hc : (l.session.account p).slots with
    | none => rw [hc] at hs; exact absurd hs.1 hn
    | some s =>
      rw [hc] at hs
      obtain ⟨-, total, line, prompt⟩ := hs
      exact ⟨by omega, s, hc, total, line, prompt⟩

/-- The failure of a third provider drops the record of the second, not the permits of the first. -/
example :
    let l := (opened { default := { limit := 1 } } (some 1)).run
      [.start ⟨[0]⟩ 0, .failure ⟨[1]⟩, .start ⟨[0]⟩ 1, .failure ⟨[2]⟩, .stop 0, .resume 1]
    l.2 = [.asked .granted, .silent, .asked .waiting, .silent, .passed (some 1), .resumed] ∧
      l.1.session.active ⟨[0]⟩ = 1 ∧ Session.entry? l.1.session ⟨[1]⟩ = none := by
  decide

end Lending

end Courier
