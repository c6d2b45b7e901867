import Mathlib.Data.List.Induction
import Courier.Broadcast
import Courier.Proofs.ListLemmas
/-!
# Histories of a broadcast

What one act does to one emission (`turn`), to who is registered
(`registered_snoc`), and whom it tells (`tells`), and what follows for a whole
history, by one act after the other.
-/

namespace Courier

/-- An emission and what becomes of it: it goes to fewer and fewer. -/
structure Emission.Becomes (x y : Emission φ) : Prop where
  fetch : y.fetch = x.fetch
  event : y.event = x.event
  left : ∀ l, x.left = some l → ∃ l', y.left = some l' ∧ l' ⊆ l

namespace Emission.Becomes

theorem rfl {x : Emission φ} : x.Becomes x := ⟨.refl _, .refl _, fun l h => ⟨l, h, List.Subset.refl l⟩⟩

theorem trans {x y z : Emission φ} (h : x.Becomes y) (h' : y.Becomes z) : x.Becomes z where
  fetch := h'.fetch.trans h.fetch
  event := h'.event.trans h.event
  left l hl := by
    obtain ⟨l', hl', hsub⟩ := h.left l hl
    obtain ⟨l'', hl'', hsub'⟩ := h'.left l' hl'
    exact ⟨l'', hl'', List.Subset.trans hsub' hsub⟩

end Emission.Becomes

namespace Broadcast

variable {φ : Type}

/-- The state after a history. -/
def board (acts : List (Act φ)) : Broadcast φ := (run acts).1

def told (acts : List (Act φ)) : List (Delivery φ) := (run acts).2

theorem board_snoc (acts : List (Act φ)) (a : Act φ) : board (acts ++ [a]) = ((board acts).act a).1 := by
  simp only [board, run, List.foldl_append, List.foldl_cons, List.foldl_nil]

theorem told_snoc (acts : List (Act φ)) (a : Act φ) :
    told (acts ++ [a]) = told acts ++ ((board acts).act a).2.toList := by
  simp only [board, told, run, List.foldl_append, List.foldl_cons, List.foldl_nil]

/-! ## Acts and a single emission -/

/-- What an act does to the emission of a number. -/
inductive Turn (b : Broadcast φ) (n : Nat) : Act φ → Prop
  | other {a : Act φ} : (b.act a).1.emissions[n]? = b.emissions[n]? →
      (∀ d ∈ (b.act a).2, d.emission ≠ n) → Turn b n a
  | emitted {f : φ} {e : Event} : n = b.emissions.length →
      (b.act (.emit f e)).1.emissions[n]? = some ⟨f, e, none⟩ → Turn b n (.emit f e)
  | returned {f : φ} {e : Event} : b.emissions[n]? = some ⟨f, e, none⟩ →
      (b.act (.returns n)).1.emissions[n]? = some ⟨f, e, some b.subscribers.ids⟩ → Turn b n (.returns n)
  | called {f : φ} {e : Event} {l : List SubscriberId} {i : SubscriberId} :
      b.emissions[n]? = some ⟨f, e, some l⟩ → i ∈ l →
      (b.act (.call n i)).1.emissions[n]? = some ⟨f, e, some (l.filter (· ≠ i))⟩ →
      (b.act (.call n i)).2 = some ⟨n, .subscriber i, e⟩ → Turn b n (.call n i)

theorem gather_of_ne (b : Broadcast φ) {m n : Nat} (h : m ≠ n) :
    (b.gather m).emissions[n]? = b.emissions[n]? := by
  unfold gather
  split
  · exact List.getElem?_set_ne h
  · rfl

theorem call_of_ne (b : Broadcast φ) {m n : Nat} (h : m ≠ n) (i : SubscriberId) :
    (b.call m i).1.emissions[n]? = b.emissions[n]? ∧ ∀ d ∈ (b.call m i).2, d.emission ≠ n := by
  unfold call
  split
  · split
    · refine ⟨List.getElem?_set_ne h, ?_⟩
      rintro d ⟨⟩
      exact h
    · exact ⟨rfl, by simp⟩
  · exact ⟨rfl, by simp⟩

theorem getElem?_set_of_some {l : List α} {n : Nat} {x : α} (h : l[n]? = some x) (y : α) :
    (l.set n y)[n]? = some y :=
  List.getElem?_set_self (List.getElem?_eq_some_iff.mp h).1

theorem emissions_returns {b : Broadcast φ} {n : Nat} {f : φ} {e : Event}
    (h : b.emissions[n]? = some ⟨f, e, none⟩) :
    (b.act (.returns n)).1.emissions[n]? = some ⟨f, e, some b.subscribers.ids⟩ := by
  simp only [act, gather, h, Subscribers.audience]
  exact getElem?_set_of_some h _

theorem emissions_call {b : Broadcast φ} {n : Nat} {f : φ} {e : Event} {l : List SubscriberId}
    {i : SubscriberId} (h : b.emissions[n]? = some ⟨f, e, some l⟩) (hi : i ∈ l) :
    (b.act (.call n i)).1.emissions[n]? = some ⟨f, e, some (l.filter (· ≠ i))⟩ := by
  simp only [act, call, h, if_pos hi]
  exact getElem?_set_of_some h _

theorem turn (b : Broadcast φ) (n : Nat) (a : Act φ) : Turn b n a := by
  cases a with
  | subscribe => exact .other rfl (by simp [act])
  | unsubscribe i => exact .other rfl (by simp [act])
  | emit f e =>
    by_cases hn : n = b.emissions.length
    · exact .emitted hn (by simp [act, hn])
    · refine .other ?_ ?_
      · obtain hlt | hgt := Nat.lt_or_gt_of_ne hn
        · exact List.getElem?_append_left hlt
        · have hlen : (b.emissions ++ [(⟨f, e, none⟩ : Emission φ)]).length ≤ n := by
            rw [List.length_append, List.length_singleton]
            omega
          exact (List.getElem?_eq_none hlen).trans (List.getElem?_eq_none (Nat.le_of_lt hgt)).symm
      · rintro d ⟨⟩
        exact Ne.symm hn
  | returns m =>
    by_cases hm : m = n
    · subst hm
      rcases hx : b.emissions[m]? with _ | ⟨f, e, _ | l⟩
      · exact .other (by simp [act, gather, hx]) (by simp [act])
      · exact .returned hx (emissions_returns hx)
      · exact .other (by simp [act, gather, hx]) (by simp [act])
    · exact .other (b.gather_of_ne hm) (by simp [act])
  | call m i =>
    by_cases hm : m = n
    · subst hm
      rcases hx : b.emissions[m]? with _ | ⟨f, e, _ | l⟩
      · exact .other (by simp [act, call, hx]) (by simp [act, call, hx])
      · exact .other (by simp [act, call, hx]) (by simp [act, call, hx])
      · by_cases hi : i ∈ l
        · exact .called hx hi (emissions_call hx hi) (by simp [act, call, hx, hi])
        · exact .other (by simp [act, call, hx, hi]) (by simp [act, call, hx, hi])
    · obtain ⟨hsame, hnot⟩ := b.call_of_ne hm i
      exact .other hsame hnot

/-! ## Emissions stay -/

theorem becomes_act {b : Broadcast φ} {n : Nat} {x : Emission φ} (h : b.emissions[n]? = some x) (a : Act φ) :
    ∃ y, (b.act a).1.emissions[n]? = some y ∧ x.Becomes y := by
  cases turn b n a with
  | other hsame => exact ⟨x, hsame.trans h, .rfl⟩
  | emitted hn => rw [hn, List.getElem?_eq_none (Nat.le_refl _)] at h; cases h
  | returned hx hy =>
    obtain rfl := Option.some.inj (hx.symm.trans h)
    exact ⟨_, hy, rfl, rfl, by simp⟩
  | called hx hi hy =>
    obtain rfl := Option.some.inj (hx.symm.trans h)
    exact ⟨_, hy, rfl, rfl, fun l hl => ⟨_, rfl, by cases hl; exact List.filter_sublist.subset⟩⟩

theorem becomes_of_prefix {pre acts : List (Act φ)} (hpre : pre <+: acts) {n : Nat} {x : Emission φ}
    (h : (board pre).emissions[n]? = some x) :
    ∃ y, (board acts).emissions[n]? = some y ∧ x.Becomes y := by
  obtain ⟨post, rfl⟩ := hpre
  induction post using List.reverseRecOn with
  | nil => exact ⟨x, by rwa [List.append_nil], .rfl⟩
  | append_singleton post a ih =>
    obtain ⟨y, hy, hxy⟩ := ih
    obtain ⟨z, hz, hyz⟩ := becomes_act hy a
    exact ⟨z, by rw [← List.append_assoc, board_snoc, hz], hxy.trans hyz⟩

/-- The callback of an emission has not returned. -/
def Open (acts : List (Act φ)) (n : Nat) : Prop :=
  ∃ x, (board acts).emissions[n]? = some x ∧ x.left = none

/-- An emission went to everyone it was to go to. -/
def Over (acts : List (Act φ)) (n : Nat) : Prop :=
  ∃ x, (board acts).emissions[n]? = some x ∧ x.left = some []

/-- The callback of an emission returned after `pre`. -/
def Taken (acts : List (Act φ)) (n : Nat) (pre : List (Act φ)) : Prop :=
  pre ++ [.returns n] <+: acts ∧ Open pre n

theorem Taken.snoc {acts pre : List (Act φ)} {n : Nat} (h : Taken acts n pre) (a : Act φ) :
    Taken (acts ++ [a]) n pre :=
  ⟨h.1.trans (List.prefix_append acts [a]), h.2⟩

theorem Taken.unique {acts pre pre' : List (Act φ)} {n : Nat} (h : Taken acts n pre) (h' : Taken acts n pre') :
    pre = pre' := by
  -- once it has returned, the callback is not there to return again
  have key {p q : List (Act φ)} (hp : Open p n) (hq : Open q n) : ¬ p ++ [.returns n] <+: q := by
    intro hpq
    obtain ⟨⟨f, e, left⟩, hx, rfl : left = none⟩ := hp
    have hret := emissions_returns hx
    rw [← board_snoc] at hret
    obtain ⟨y, hy, hbecomes⟩ := becomes_of_prefix hpq hret
    obtain ⟨z, hz, hzl⟩ := hq
    obtain rfl := Option.some.inj (hy.symm.trans hz)
    obtain ⟨l, hl, -⟩ := hbecomes.left _ rfl
    rw [hzl] at hl
    cases hl
  obtain hle | hle := List.prefix_or_prefix_of_prefix h.1 h'.1
  · obtain heq | hlt := List.prefix_concat_iff.mp hle
    · exact (List.append_inj' heq rfl).1
    · exact absurd hlt (key h.2 h'.2)
  · obtain heq | hlt := List.prefix_concat_iff.mp hle
    · exact (List.append_inj' heq rfl).1.symm
    · exact absurd hlt (key h'.2 h.2)

/-! ## Who is registered -/

def registrations (acts : List (Act φ)) : Nat :=
  acts.countP fun | .subscribe => true | _ => false

/-- The identity of the subscriber that registers after `k` others. -/
def idOf (k : Nat) : SubscriberId := UInt64.ofNat (k + 1)

/-- The subscriber that registered after `k` others is there, and its closure was not run. -/
def Registered (acts : List (Act φ)) (k : Nat) : Prop :=
  ∃ pre post, acts = pre ++ .subscribe :: post ∧ registrations pre = k ∧ .unsubscribe (idOf k) ∉ post

theorem Registered.lt {acts : List (Act φ)} {k : Nat} (h : Registered acts k) : k < registrations acts := by
  obtain ⟨pre, post, rfl, rfl, -⟩ := h
  simp only [registrations, List.countP_append, List.countP_cons, if_true]
  omega

/-- The events that were sent out, in order, each with its fetch. -/
def emitted (acts : List (Act φ)) : List (φ × Event) :=
  acts.filterMap fun | .emit f e => some (f, e) | _ => none

inductive Tells (b : Broadcast φ) : Act φ → Option (Delivery φ) → Prop
  | nobody {a : Act φ} : emitted [a] = [] → Tells b a none
  | callback (f : φ) (e : Event) : Tells b (.emit f e) (some ⟨b.emissions.length, .callback f, e⟩)
  | subscriber {n : Nat} {i : SubscriberId} {f : φ} {e : Event} {l : List SubscriberId} :
      b.emissions[n]? = some ⟨f, e, some l⟩ → i ∈ l →
      Tells b (.call n i) (some ⟨n, .subscriber i, e⟩)

theorem tells (b : Broadcast φ) (a : Act φ) : Tells b a (b.act a).2 := by
  cases a with
  | subscribe | unsubscribe | returns => exact .nobody rfl
  | emit f e => exact .callback f e
  | call n i =>
    simp only [act, call]
    split
    · next h =>
      split
      · next hi => exact .subscriber h hi
      · exact .nobody rfl
    · exact .nobody rfl

end Broadcast

end Courier
