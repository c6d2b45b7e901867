import Courier.Proofs.ExchangeSound

/-!
# Fetches that ask hold their slots until they are gone

A step leaves the fetches as they are and begins new ones, changes one of them,
or takes some away (`Step.turnover`). A fetch that asks goes on asking under its
ticket, and so keeps a slot of either level, until it is taken away. Nobody has
its ticket then.
-/

namespace Courier.Exchange

variable {x y : Exchange} {k : Key} {w : Walk} {f : Fetch} {t : Ticket} {a : Action}
  {es : List Effect} {n : Nat} {p : ProviderId} {others : List ProviderId}

/-- The fetch of a ticket asks a provider. -/
def Holds (x : Exchange) (t : Ticket) : Prop := ∃ f ∈ x.fetches, f.ticket = t ∧ f.isAsking = true

/-- The ticket was given out, and no fetch has it any more. -/
def Gone (x : Exchange) (t : Ticket) : Prop := t < x.fresh ∧ ∀ f ∈ x.fetches, f.ticket ≠ t

theorem drop_fetches (hk : x.walk? k = some w) : (x.drop k).1.fetches = x.others k := by
  rw [drop_eq hk]
  rfl

theorem finish_fetches (hx : x.Tidy) (hk : x.walk? k = some w) (w' : Walk) (s : Slots)
    (r : Except Error Tally) :
    (((setWalk { x with shared := s } k w').finish k r).1).fetches = x.others k := by
  have hk' := walk?_setWalk (x := { x with shared := s }) w' hx.keys hk
  have hf : (((setWalk { x with shared := s } k w').finish k r).1).fetches =
      others (setWalk { x with shared := s } k w') k := drop_fetches hk'
  rw [hf, others, filter_setWalk]
  rfl

/-- What a step does to the fetches. -/
theorem Step.turnover (hx : x.Tidy) (h : x.Step a y es) :
    (∃ l, y.fetches.Perm (x.fetches ++ l) ∧ ∀ g ∈ l, x.fresh ≤ g.ticket) ∨
    (∃ f f' rest, x.fetches.Perm (f :: rest) ∧ y.fetches.Perm (f' :: rest) ∧
      f'.ticket = f.ticket ∧ (f.isAsking = true → f'.isAsking = true)) ∨
    ∃ l, x.fetches.Perm (l ++ y.fetches) := by
  have dropped {k : Key} {w : Walk} (hk : x.walk? k = some w) (hd : y.fetches = x.others k) :
      ∃ l, x.fetches.Perm (l ++ y.fetches) := by
    rw [hd]
    exact ⟨w.fetches, fetches_perm hx.keys hk⟩
  cases h with
  | @starts root providers =>
    refine .inl ⟨spawned (x.fresh + 1) [root], ?_, fun g hg => ?_⟩
    · rw [start_fetches]
    · exact Nat.le_trans (Nat.le_succ _) (mem_spawned hg).2.1
  | @goes k w f f' own shared _ hk hf hw hg hp =>
    have ht := hx.walk_tickets hk
    refine .inr (.inl ⟨f, f', w.fetches.filter (·.ticket ≠ f.ticket) ++ x.others k, ?_, ?_,
      hg.ticket, fun ha => ?_⟩)
    · exact (fetches_perm hx.keys hk).trans ((Walk.fetches_perm ht hf).append_right _)
    · have hset := Walk.setFetch_perm (w := { w with own }) ht hf hg.ticket
      exact (fetches_setWalk (x := { x with shared }) _ hx.keys hk).trans (hset.append_right _)
    · unfold Fetch.isAsking at ha
      cases hg with
      | linesUp hp' => simp [hp'] at ha
      | enters hp' => simp [hp'] at ha
      | begins hp' => simp [hp'] at ha
      | @turns p others =>
        cases others with
        | nil => exact absurd rfl hp
        | cons q r => rfl
  | fails hk => exact .inr (.inr (dropped hk (finish_fetches hx hk _ _ _)))
  | halts hk => exact .inr (.inr (dropped hk (drop_fetches hk)))
  | @delivers k w f p others _ b _ hk hf hw hp hb hes =>
    have ht := hx.walk_tickets hk
    refine .inr (.inr ⟨[f], ?_⟩)
    have hset := fetches_setWalk (x := { x with shared := x.shared.release.1 })
      (({ w with own := w.own.release.1 }.dropFetch f.ticket).take b p) hx.keys hk
    refine (fetches_perm hx.keys hk).trans ?_
    exact ((Walk.fetches_perm ht hf).append_right _).trans (hset.symm.cons f)
  | @spawns k w links _ hk hw hne hes =>
    refine .inl ⟨spawned x.fresh links, ?_, fun g hg => (mem_spawned hg).2.1⟩
    have hset := fetches_setWalk ({ w with writing := none }.spawn x.fresh links) hx.keys hk
    refine List.Perm.trans hset ?_
    refine List.Perm.trans ?_ ((fetches_perm hx.keys hk).symm.append_right _)
    have hspawn : ({ w with writing := none }.spawn x.fresh links).fetches =
        w.fetches ++ spawned x.fresh links := rfl
    rw [hspawn, List.append_assoc, List.append_assoc]
    exact List.perm_append_comm.append_left _
  | completes hk => exact .inr (.inr (dropped hk (drop_fetches hk)))
  | refuses hk => exact .inr (.inr (dropped hk (drop_fetches hk)))
  | drops hk => exact .inr (.inr (dropped hk (drop_fetches hk)))

theorem Gone.step_of (ht : x.Gone t) (hx : x.Tidy) (h : x.Step a y es) : y.Gone t := by
  refine ⟨Nat.lt_of_lt_of_le ht.1 h.frame.2.2, fun g hg he => ?_⟩
  rcases h.turnover hx with ⟨l, hl, hnew⟩ | ⟨f, f', rest, hf, hf', hticket, -⟩ | ⟨l, hl⟩
  · rcases List.mem_append.1 (hl.subset hg) with hg | hg
    · exact ht.2 g hg he
    · exact absurd (hnew g hg) (Nat.not_le.2 (he ▸ ht.1))
  · rcases List.mem_cons.1 (hf'.subset hg) with rfl | hg
    · exact ht.2 f (hf.symm.subset List.mem_cons_self) (hticket.symm.trans he)
    · exact ht.2 g (hf.symm.subset (List.mem_cons_of_mem _ hg)) he
  · exact ht.2 g (hl.symm.subset (List.mem_append_right _ hg)) he

/-- Every slot is free, was handed over, or is held by a fetch that asks; those of a walk also by
fetches that have yet to get a shared one. -/
def Balanced (n m : Nat) (x : Exchange) : Prop :=
  x.shared.free + x.shared.handed.length + inFlight x.fetches = n ∧
    ∀ k w, x.walk? k = some w → w.own.free + w.own.handed.length +
      (inFlight w.fetches + (Level.shared.line w.fetches).length) = m

theorem Sound.balanced (hx : x.Sound n) : x.Balanced n x.width := by
  refine ⟨?_, fun k w hk => ?_⟩
  · rw [← held_shared hx.unspent]
    exact hx.shared.total
  · rw [← held_own (hx.walk_unspent hk)]
    exact (hx.own_of_walk hk).total

end Courier.Exchange
