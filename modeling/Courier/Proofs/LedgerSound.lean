import Courier.Lending
import Courier.Proofs.KeyLemmas
import Courier.Proofs.SlotsSound
import Mathlib.Logic.Function.Basic

/-!
# A ledger of permits

A ledger keeps an account for every provider there is and never drops one. Its
accounts are balanced: of the slots of a provider each is free, handed to a
waiting loan or held by a loan with a permit, and whoever holds the account
waits for a permit or has one. Every action keeps them so.
-/

namespace Courier

/-! ## Loans -/

namespace Loan

def onProvider (p : ProviderId) (l : List Loan) : List Loan := l.filter (·.provider = p)

def permits (l : List Loan) : Nat := l.countP (·.permit.isSome)

def waiters (l : List Loan) : List Ticket := (l.filter (·.permit.isNone)).map (·.ticket)

variable {x : Loan} {l : List Loan}

theorem permits_cons_some (hx : x.permit.isSome) : permits (x :: l) = permits l + 1 := by
  simp [permits, hx]

theorem permits_cons_none (hx : x.permit = none) : permits (x :: l) = permits l := by
  simp [permits, hx]

theorem waiters_cons_some (hx : x.permit.isSome) : waiters (x :: l) = waiters l := by
  simp [waiters, Option.isSome_iff_ne_none.1 hx]

theorem waiters_cons_none (hx : x.permit = none) : waiters (x :: l) = x.ticket :: waiters l := by
  simp [waiters, hx]

/-! ### One loan among others -/

variable {l₁ l₂ : List Loan}

theorem onProvider_split (x : Loan) (l₁ l₂ : List Loan) :
    (onProvider x.provider (l₁ ++ x :: l₂)).Perm (x :: onProvider x.provider (l₁ ++ l₂)) := by
  have hp : (l₁ ++ x :: l₂).Perm (x :: (l₁ ++ l₂)) := List.perm_middle
  have := hp.filter (·.provider = x.provider)
  rwa [List.filter_cons_of_pos (by simp)] at this

theorem onProvider_split_ne {q : ProviderId} (hq : x.provider ≠ q) (l₁ l₂ : List Loan) :
    onProvider q (l₁ ++ x :: l₂) = onProvider q (l₁ ++ l₂) := by
  simp [onProvider, hq]

end Loan

open Loan

def Session.Grant.permit : Session.Grant → Option Bool
  | .unlimited => some false
  | .granted => some true
  | .waiting => none

/-! ## Accounts -/

/-- What the permits of a provider depend on. -/
structure Account where
  slots : Option Slots
  active : Nat := 0
  holders : Nat := 0
  deriving DecidableEq, Repr

namespace Account

def fresh (n : Nat) : Account := { slots := if n = 0 then none else some { free := n } }

def acquire (a : Account) (t : Ticket) : Account × Session.Grant :=
  match a.slots with
  | none => ({ a with active := a.active + 1, holders := a.holders + 1 }, .granted)
  | some s =>
    match s.acquire t with
    | (s, true) => (⟨some s, a.active + 1, a.holders + 1⟩, .granted)
    | (s, false) => (⟨some s, a.active, a.holders + 1⟩, .waiting)

def resume? (a : Account) (t : Ticket) : Option Account := do
  let s ← a.slots
  let s ← s.resume? t
  return ⟨some s, a.active + 1, a.holders⟩

def release (a : Account) : Account × Option Ticket :=
  match a.slots with
  | none => (⟨none, a.active - 1, a.holders - 1⟩, none)
  | some s => (⟨some s.release.1, a.active - 1, a.holders - 1⟩, s.release.2)

def abandon (a : Account) (t : Ticket) : Account × Option Ticket :=
  match a.slots with
  | none => (⟨none, a.active, a.holders - 1⟩, none)
  | some s => (⟨some (s.abandon t).1, a.active, a.holders - 1⟩, (s.abandon t).2)

/-- The slots of a provider account for its loans. A provider without a limit has everybody served. -/
def Covers (n : Nat) (l : List Loan) : Option Slots → Prop
  | none => n = 0 ∧ waiters l = []
  | some s => n ≠ 0 ∧ s.Lends n (permits l) (waiters l)

/-- The account of a provider with the limit `n` and the loans `l`. -/
structure Balanced (n : Nat) (l : List Loan) (a : Account) : Prop where
  active : a.active = permits l
  holders : a.holders = l.length
  slots : Covers n l a.slots

variable {a a' : Account} {n : Nat} {x : Loan} {l l' : List Loan}

theorem balanced_fresh (n : Nat) : (fresh n).Balanced n [] := by
  refine ⟨rfl, rfl, ?_⟩
  unfold fresh; split
  · next h => exact ⟨h, rfl⟩
  · next h => exact ⟨h, rfl, .rfl, .inr rfl⟩

theorem Balanced.eq_fresh (h : a.Balanced n []) : a = fresh n := by
  obtain ⟨slots, active, holders⟩ := a
  obtain ⟨rfl, rfl, hs⟩ := h
  cases slots with
  | none => simp [fresh, hs.1, permits]
  | some s =>
    obtain ⟨hn, total, line, -⟩ := hs
    obtain ⟨hw, hd⟩ := List.append_eq_nil_iff.1 line.eq_nil
    obtain ⟨free, waiting, handed⟩ := s
    cases hw
    cases hd
    have : free = n := by simpa [permits] using total
    simp [fresh, hn, this, permits]

theorem Balanced.perm (h : a.Balanced n l) (hl : l.Perm l') : a.Balanced n l' := by
  have hp : permits l = permits l' := hl.countP_eq _
  have hw : (waiters l).Perm (waiters l') := (hl.filter _).map _
  refine ⟨h.active.trans hp, h.holders.trans hl.length_eq, ?_⟩
  have hs := h.slots
  cases ha : a.slots with
  | none =>
    rw [ha] at hs
    exact ⟨hs.1, (hs.2 ▸ hw).symm.eq_nil⟩
  | some s =>
    rw [ha] at hs
    exact ⟨hs.1, hp ▸ hs.2.total, hs.2.line.trans hw, hs.2.prompt⟩

theorem acquire_real (a : Account) (t : Ticket) : (a.acquire t).2.permit ≠ some false := by
  unfold acquire; split
  · simp [Session.Grant.permit]
  · split <;> simp [Session.Grant.permit]

theorem Balanced.acquire (h : a.Balanced n l) (p : ProviderId) (t : Ticket) :
    (a.acquire t).1.Balanced n (⟨t, p, (a.acquire t).2.permit⟩ :: l) := by
  obtain ⟨slots, active, holders⟩ := a
  obtain ⟨rfl, rfl, hs⟩ := h
  cases slots with
  | none => exact ⟨(permits_cons_some rfl).symm, rfl, hs.1, (waiters_cons_some rfl).trans hs.2⟩
  | some s =>
    obtain ⟨hn, hs⟩ := hs
    cases ha : s.acquire t with
    | mk s' granted =>
      cases granted with
      | true =>
        simp only [Account.acquire, ha]
        refine ⟨(permits_cons_some rfl).symm, rfl, hn, ?_⟩
        rw [permits_cons_some rfl, waiters_cons_some rfl]
        exact hs.acquire_granted ha
      | false =>
        simp only [Account.acquire, ha]
        refine ⟨(permits_cons_none rfl).symm, rfl, hn, ?_⟩
        rw [permits_cons_none rfl, waiters_cons_none rfl]
        exact hs.acquire_waiting ha

theorem Balanced.resume (h : a.Balanced n (x :: l)) (hx : x.permit = none)
    (hr : a.resume? x.ticket = some a') :
    a'.Balanced n ({ x with permit := some true } :: l) := by
  obtain ⟨slots, active, holders⟩ := a
  obtain ⟨rfl, rfl, hs⟩ := h
  cases slots with
  | none => simp [resume?] at hr
  | some s =>
    obtain ⟨hn, hs⟩ := hs
    rw [permits_cons_none hx, waiters_cons_none hx] at hs
    cases hsr : s.resume? x.ticket with
    | none => simp [resume?, hsr] at hr
    | some s' =>
      simp only [resume?, Option.bind_eq_bind, Option.bind_some, hsr, Option.pure_def,
        Option.some.injEq] at hr
      subst hr
      have hp := permits_cons_some (x := { x with permit := some true }) (l := l) rfl
      have hw := waiters_cons_some (x := { x with permit := some true }) (l := l) rfl
      refine ⟨?_, rfl, hn, ?_⟩
      · rw [hp, permits_cons_none hx]
      · rw [hp, hw]
        exact hs.resume hsr

theorem Balanced.release (h : a.Balanced n (x :: l)) (hx : x.permit.isSome) :
    a.release.1.Balanced n l := by
  obtain ⟨slots, active, holders⟩ := a
  obtain ⟨rfl, rfl, hs⟩ := h
  have hp := permits_cons_some (l := l) hx
  have hw := waiters_cons_some (l := l) hx
  cases slots with
  | none => exact ⟨by simp [Account.release, hp], rfl, hs.1, hw ▸ hs.2⟩
  | some s =>
    obtain ⟨hn, hs⟩ := hs
    rw [hp, hw] at hs
    exact ⟨by simp [Account.release, hp], rfl, hn, hs.release⟩

theorem Balanced.abandon (h : a.Balanced n (x :: l)) (hx : x.permit = none) :
    (a.abandon x.ticket).1.Balanced n l := by
  obtain ⟨slots, active, holders⟩ := a
  obtain ⟨rfl, rfl, hs⟩ := h
  have hp := permits_cons_none (l := l) hx
  have hw := waiters_cons_none (l := l) hx
  cases slots with
  | none =>
    rw [Covers, hw] at hs
    cases hs.2
  | some s =>
    obtain ⟨hn, hs⟩ := hs
    rw [hp, hw] at hs
    exact ⟨hp, rfl, hn, hs.abandon⟩

end Account

/-! ## Actions -/

namespace Lending

inductive Action where
  | start (p : ProviderId) (t : Ticket)
  | resume (t : Ticket)
  /-- Drops the permit of a ticket, or stops waiting for one. -/
  | stop (t : Ticket)
  | success (p : ProviderId) (elapsed : Duration)
  | failure (p : ProviderId)
  | sort (l : List Candidate)

inductive Answer where
  | silent
  | asked (g : Session.Grant)
  | resumed
  /-- The ticket a slot was handed to. -/
  | passed (next : Option Ticket)
  | ranked (l : List Candidate)
  deriving DecidableEq, Repr

end Lending

structure Ledger where
  accounts : ProviderId → Account
  loans : List Loan := []

namespace Ledger

open Lending (Action Answer)

def start (g : Ledger) (p : ProviderId) (t : Ticket) : Ledger × Answer :=
  if (g.loans.find? (·.ticket = t)).isSome then (g, .silent)
  else
    let r := (g.accounts p).acquire t
    (⟨Function.update g.accounts p r.1, g.loans ++ [⟨t, p, r.2.permit⟩]⟩, .asked r.2)

def resume (g : Ledger) (t : Ticket) : Ledger × Answer :=
  match g.loans.find? (·.ticket = t) with
  | none => (g, .silent)
  | some x =>
    if x.permit.isSome then (g, .silent)
    else
      match (g.accounts x.provider).resume? t with
      | none => (g, .silent)
      | some a =>
        (⟨Function.update g.accounts x.provider a,
          g.loans.map fun y => if y.ticket = t then { y with permit := some true } else y⟩,
          .resumed)

def stop (g : Ledger) (t : Ticket) : Ledger × Answer :=
  match g.loans.find? (·.ticket = t) with
  | none => (g, .passed none)
  | some x =>
    let a := g.accounts x.provider
    let r := if x.permit.isSome then a.release else a.abandon t
    (⟨Function.update g.accounts x.provider r.1, g.loans.filter (·.ticket ≠ t)⟩, .passed r.2)

/-- Does what an action asks for. Records are not kept here. -/
def act (g : Ledger) : Action → Ledger × Answer
  | .start p t => g.start p t
  | .resume t => g.resume t
  | .stop t => g.stop t
  | .success _ _ => (g, .silent)
  | .failure _ => (g, .silent)
  | .sort _ => (g, .silent)

def run (g : Ledger) : List Action → Ledger × List Answer
  | [] => (g, [])
  | a :: as => (((g.act a).1.run as).1, (g.act a).2 :: ((g.act a).1.run as).2)

def opened (limit : ProviderId → Nat) : Ledger := ⟨fun p => Account.fresh (limit p), []⟩

/-- What holds of the ledger of a live session whose providers have these limits. -/
structure Kept (limit : ProviderId → Nat) (g : Ledger) : Prop where
  tickets : (g.loans.map (·.ticket)).Nodup
  real : ∀ x ∈ g.loans, x.permit ≠ some false
  balanced : ∀ p, (g.accounts p).Balanced (limit p) (onProvider p g.loans)

variable {limit : ProviderId → Nat} {g : Ledger} {p : ProviderId} {t : Ticket} {x : Loan}
  {l₁ l₂ : List Loan}

theorem kept_opened (limit : ProviderId → Nat) : (opened limit).Kept limit :=
  ⟨List.nodup_nil, nofun, fun p => Account.balanced_fresh (limit p)⟩

/-- Only the account of the provider of a loan has to be looked at when the loan changes. -/
theorem balanced_update {l : List Loan} {a : Account}
    (h : ∀ q, (g.accounts q).Balanced (limit q) (onProvider q g.loans))
    (hp : a.Balanced (limit p) (onProvider p l))
    (hq : ∀ q, p ≠ q → onProvider q l = onProvider q g.loans) (q : ProviderId) :
    (Function.update g.accounts p a q).Balanced (limit q) (onProvider q l) := by
  by_cases hpq : p = q
  · subst hpq
    rw [Function.update_self]
    exact hp
  · rw [Function.update_of_ne (Ne.symm hpq), hq q hpq]
    exact h q

theorem Kept.account (h : g.Kept limit) (hg : g.loans = l₁ ++ x :: l₂) :
    (g.accounts x.provider).Balanced (limit x.provider)
      (x :: onProvider x.provider (l₁ ++ l₂)) :=
  (h.balanced x.provider).perm (hg ▸ onProvider_split x l₁ l₂)

theorem Kept.start (h : g.Kept limit) (p : ProviderId) (t : Ticket) :
    (g.start p t).1.Kept limit := by
  unfold Ledger.start; split
  · exact h
  · next ht =>
    have ht : ∀ y ∈ g.loans, y.ticket ≠ t := by simpa using ht
    refine ⟨?_, ?_, balanced_update h.balanced ?_ ?_⟩
    · rw [List.map_append, List.nodup_append]
      refine ⟨h.tickets, List.nodup_cons.2 ⟨List.not_mem_nil, List.nodup_nil⟩, fun a ha b hb => ?_⟩
      obtain ⟨y, hy, rfl⟩ := List.mem_map.1 ha
      rw [List.mem_singleton.1 hb]
      exact ht y hy
    · intro y hy
      rcases List.mem_append.1 hy with hy | hy
      · exact h.real y hy
      · rw [List.mem_singleton.1 hy]
        exact Account.acquire_real _ t
    · have ha := (h.balanced p).acquire p t
      refine ha.perm ?_
      simpa using (onProvider_split ⟨t, p, _⟩ g.loans []).symm
    · intro q hq
      rw [onProvider_split_ne hq, List.append_nil]

theorem Kept.resume (h : g.Kept limit) (t : Ticket) : (g.resume t).1.Kept limit := by
  unfold Ledger.resume; split
  · exact h
  · next x hx =>
    split
    · exact h
    · next hp =>
      have hp : x.permit = none := by simpa using hp
      split
      · exact h
      · next a ha =>
        obtain ⟨l₁, l₂, hl, rfl, hne⟩ := Keyed.exists_split h.tickets hx
        have hm := Keyed.map_split (fun y => { y with permit := some true }) rfl hne
        rw [hl, hm]
        have ht := h.tickets
        rw [hl] at ht
        refine ⟨by simpa using ht, ?_, balanced_update h.balanced ?_ ?_⟩
        · intro y hy
          rcases List.mem_append.1 hy with hy | hy
          · exact h.real y (hl ▸ List.mem_append_left _ hy)
          · rcases List.mem_cons.1 hy with rfl | hy
            · simp
            · exact h.real y (hl ▸ List.mem_append_right _ (List.mem_cons_of_mem _ hy))
        · exact ((h.account hl).resume hp ha).perm (onProvider_split _ l₁ l₂).symm
        · intro q hq
          rw [hl, onProvider_split_ne hq]
          exact onProvider_split_ne (x := { x with permit := some true }) hq l₁ l₂

theorem Kept.stop (h : g.Kept limit) (t : Ticket) : (g.stop t).1.Kept limit := by
  unfold Ledger.stop; split
  · exact h
  · next x hx =>
    obtain ⟨l₁, l₂, hl, rfl, hne⟩ := Keyed.exists_split h.tickets hx
    have hs : (l₁ ++ l₂).Sublist g.loans := by
      rw [hl]; exact (List.sublist_cons_self x l₂).append_left l₁
    dsimp only
    rw [show g.loans.filter (·.ticket ≠ x.ticket) = l₁ ++ l₂ from hl ▸ Keyed.filter_split rfl hne]
    refine ⟨h.tickets.sublist (hs.map _), fun y hy => h.real y (hs.subset hy),
      balanced_update h.balanced ?_ ?_⟩
    · by_cases hp : x.permit.isSome
      · rw [if_pos hp]
        exact (h.account hl).release hp
      · rw [if_neg hp]
        exact (h.account hl).abandon (by simpa using hp)
    · intro q hq
      rw [hl, onProvider_split_ne hq]

theorem Kept.act (h : g.Kept limit) (a : Action) : (g.act a).1.Kept limit := by
  cases a with
  | start p t => exact h.start p t
  | resume t => exact h.resume t
  | stop t => exact h.stop t
  | success _ _ => exact h
  | failure _ => exact h
  | sort _ => exact h

theorem Kept.run (h : g.Kept limit) (as : List Action) : (g.run as).1.Kept limit := by
  induction as generalizing g with
  | nil => exact h
  | cons a as ih => exact ih (h.act a)

end Ledger

end Courier
