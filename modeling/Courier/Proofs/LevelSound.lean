import Courier.Proofs.ExchangeLemmas
import Courier.Proofs.SlotsSound

/-!
# Two levels of slots

A request in flight holds a slot of its walk and one that all walks share. At
each level the slots are accounted for by the fetches that are there, and every
step of a fetch keeps them so.
-/

namespace Courier.Exchange

/-- The phases in which a fetch is in line for a slot, and those in which it holds one. -/
structure Level where
  lines : Phase → Bool
  holds : Phase → Bool
  apart : ∀ p, lines p = true → holds p = false

namespace Level

def own : Level where
  lines | .awaitingOwn => true | _ => false
  holds | .awaitingShared | .asking _ _ | .spent => true | _ => false
  apart p := by cases p <;> simp

def shared : Level where
  lines | .awaitingShared => true | _ => false
  holds | .asking _ _ | .spent => true | _ => false
  apart p := by cases p <;> simp

def held (v : Level) (l : List Fetch) : Nat := l.countP (v.holds ·.phase)

def line (v : Level) (l : List Fetch) : List Ticket := (l.filter (v.lines ·.phase)).map (·.ticket)

/-- Of `n` slots each is free, handed to a fetch in line or held by one. -/
def Accounts (v : Level) (n : Nat) (l : List Fetch) (s : Slots) : Prop :=
  s.Lends n (v.held l) (v.line l)

variable {v : Level} {n : Nat} {l l' : List Fetch} {s s' : Slots} {f f' : Fetch}

theorem Accounts.perm (h : v.Accounts n l s) (hl : l.Perm l') : v.Accounts n l' s := by
  have hh : v.held l = v.held l' := hl.countP_eq _
  have hw : (v.line l).Perm (v.line l') := (hl.filter _).map _
  unfold Accounts at *
  rw [← hh]
  exact h.perm hw

theorem held_cons (f : Fetch) (l : List Fetch) :
    v.held (f :: l) = v.held l + if v.holds f.phase then 1 else 0 := List.countP_cons

theorem line_cons (f : Fetch) (l : List Fetch) :
    v.line (f :: l) = if v.lines f.phase then f.ticket :: v.line l else v.line l := by
  unfold line
  rw [List.filter_cons]
  split <;> rfl

theorem accounts_in_line (hf : v.lines f.phase = true) :
    v.Accounts n (f :: l) s ↔ s.Lends n (v.held l) (f.ticket :: v.line l) := by
  simp [Accounts, held_cons, line_cons, hf, v.apart _ hf]

theorem accounts_holding (hf : v.holds f.phase = true) :
    v.Accounts n (f :: l) s ↔ s.Lends n (v.held l + 1) (v.line l) := by
  have hl : v.lines f.phase = false := by
    by_contra hl
    simp [v.apart _ (by simpa using hl)] at hf
  simp [Accounts, held_cons, line_cons, hf, hl]

theorem accounts_neither (hl : v.lines f.phase = false) (hh : v.holds f.phase = false) :
    v.Accounts n (f :: l) s ↔ v.Accounts n l s := by
  simp [Accounts, held_cons, line_cons, hl, hh]

theorem accounts_nil (n : Nat) : v.Accounts n [] { free := n } := .opened n

theorem accounts_fresh (hl : ∀ f ∈ l, f.phase = .fresh) (hf : v.lines .fresh = false)
    (hh : v.holds .fresh = false) (h : v.Accounts n l' s) : v.Accounts n (l ++ l') s := by
  induction l with
  | nil => exact h
  | cons f l ih =>
    have hp : f.phase = .fresh := hl f List.mem_cons_self
    rw [List.cons_append, accounts_neither (by rw [hp, hf]) (by rw [hp, hh])]
    exact ih fun g hg => hl g (List.mem_cons_of_mem _ hg)

/-- A fetch in line, while no fetch holds a slot, means that some fetch was handed one. -/
theorem Accounts.exists_handed (h : v.Accounts n l s) (hn : n ≠ 0)
    (hh : ∀ f ∈ l, v.holds f.phase = false) (hf : f ∈ l) (hl : v.lines f.phase = true) :
    ∃ g ∈ l, v.lines g.phase = true ∧ g.ticket ∈ s.handed := by
  have h0 : v.held l = 0 := List.countP_eq_zero.2 fun f hf => by simp [hh f hf]
  unfold Accounts at h
  rw [h0] at h
  have hm : f.ticket ∈ v.line l := List.mem_map_of_mem (List.mem_filter.2 ⟨hf, hl⟩)
  obtain ⟨t, ht, hs⟩ := h.exists_handed hn (List.ne_nil_of_mem hm)
  obtain ⟨g, hg, rfl⟩ := List.mem_map.1 ht
  obtain ⟨hg, hgl⟩ := List.mem_filter.1 hg
  exact ⟨g, hg, hgl, hs⟩

end Level

open Level

variable {f f' : Fetch} {providers : List ProviderId} {o o' s s' : Slots} {a : Action}
  {n m : Nat} {l : List Fetch}

theorem Fetch.turned_asks (f : Fetch) (l : List ProviderId) :
    Level.own.holds (f.turned l).phase = true ∧ Level.shared.holds (f.turned l).phase = true := by
  cases l <;> exact ⟨rfl, rfl⟩

/-- A step of a fetch takes a slot of its walk. -/
theorem Fetch.Goes.own (hg : f.Goes providers o s a f' o' s')
    (h : Level.own.Accounts n (f :: l) o) : Level.own.Accounts n (f' :: l) o' := by
  cases hg with
  | linesUp hp =>
    rw [accounts_neither (by rw [hp]; rfl) (by rw [hp]; rfl)] at h
    rw [accounts_in_line rfl]
    exact h.request f.ticket
  | enters hp hr =>
    rw [accounts_in_line (by rw [hp]; rfl)] at h
    rw [accounts_holding rfl]
    exact h.resume hr
  | begins hp hr =>
    rw [accounts_holding (by rw [hp]; rfl)] at h
    rw [accounts_holding (f.turned_asks _).1]
    exact h
  | turns hp hne =>
    rw [accounts_holding (by rw [hp]; rfl)] at h
    rw [accounts_holding (f.turned_asks _).1]
    exact h

theorem Fetch.Goes.shared (hg : f.Goes providers o s a f' o' s')
    (h : Level.shared.Accounts n (f :: l) s) : Level.shared.Accounts n (f' :: l) s' := by
  cases hg with
  | linesUp hp =>
    rw [accounts_neither (by rw [hp]; rfl) (by rw [hp]; rfl)] at h
    rw [accounts_neither rfl rfl]
    exact h
  | enters hp hr =>
    rw [accounts_neither (by rw [hp]; rfl) (by rw [hp]; rfl)] at h
    rw [accounts_in_line rfl]
    exact h.request f.ticket
  | begins hp hr =>
    rw [accounts_in_line (by rw [hp]; rfl)] at h
    rw [accounts_holding (f.turned_asks _).2]
    exact h.resume hr
  | turns hp hne =>
    rw [accounts_holding (by rw [hp]; rfl)] at h
    rw [accounts_holding (f.turned_asks _).2]
    exact h

theorem Fetch.accounts_leave (h : Level.shared.Accounts n (f :: l) s) :
    Level.shared.Accounts n l (f.leave s).1 := by
  unfold Fetch.leave
  split
  · next hp => exact (accounts_neither (by rw [hp]; rfl) (by rw [hp]; rfl)).1 h
  · next hp => exact (accounts_neither (by rw [hp]; rfl) (by rw [hp]; rfl)).1 h
  · next hp => exact ((accounts_in_line (by rw [hp]; rfl)).1 h).abandon
  · next p others hp => exact ((accounts_holding (by rw [hp]; rfl)).1 h).release
  · next hp => exact ((accounts_holding (by rw [hp]; rfl)).1 h).release

/-- A walk that lets go of its fetches leaves the slots of the others as they are. -/
theorem Walk.accounts_leave (w : Walk) (h : Level.shared.Accounts n (w.fetches ++ l) s) :
    Level.shared.Accounts n l (w.leave s).1 := by
  unfold Walk.leave
  generalize w.fetches = fs at h ⊢
  induction fs generalizing l with
  | nil => exact h
  | cons f r ih =>
    rw [List.foldr_cons]
    exact Fetch.accounts_leave (ih (h.perm List.perm_middle.symm))

/-! ## Requests in flight -/

def Fetch.isAsking (f : Fetch) : Bool :=
  match f.phase with
  | .asking _ _ => true
  | _ => false

def inFlight (l : List Fetch) : Nat := l.countP Fetch.isAsking

theorem held_shared (hl : ∀ f ∈ l, f.phase ≠ .spent) : Level.shared.held l = inFlight l := by
  refine List.countP_congr fun f hf => ?_
  have hs := hl f hf
  unfold Fetch.isAsking
  cases hp : f.phase with
  | spent => exact absurd hp hs
  | _ => simp [Level.shared]

/-- What holds a slot of its walk has asked, or is in line for a shared slot. -/
theorem held_own (hl : ∀ f ∈ l, f.phase ≠ .spent) :
    Level.own.held l = inFlight l + (Level.shared.line l).length := by
  induction l with
  | nil => rfl
  | cons f l ih =>
    have ih := ih fun g hg => hl g (List.mem_cons_of_mem _ hg)
    have hs := hl f List.mem_cons_self
    unfold inFlight at ih ⊢
    rw [held_cons, line_cons, List.countP_cons, ih]
    unfold Fetch.isAsking
    cases hp : f.phase with
    | spent => exact absurd hp hs
    | awaitingShared => simp [Level.own, Level.shared]; omega
    | asking p others => simp [Level.own, Level.shared]; omega
    | _ => simp [Level.own, Level.shared]

end Courier.Exchange
