import Courier.Slots
import Mathlib.Data.List.Perm.Basic

/-!
# Slots are lent and come back

Of some slots each is free, handed to a ticket in line or held, and none is free
while a ticket waits. Lining up, resuming, giving back and going away keep it so.
-/

namespace Courier

namespace Slots

/-- Of `n` slots `held` are held, and those in line are `w`. -/
structure Lends (n held : Nat) (w : List Ticket) (s : Slots) : Prop where
  total : s.free + s.handed.length + held = n
  line : (s.waiting ++ s.handed).Perm w
  prompt : s.free = 0 ∨ s.waiting = []

variable {s s' : Slots} {t : Ticket} {n k : Nat} {w : List Ticket}

theorem Lends.acquire_granted (h : s.Lends n k w) (ha : s.acquire t = (s', true)) :
    s'.Lends n (k + 1) w := by
  obtain ⟨total, line, prompt⟩ := h
  unfold acquire at ha; split at ha
  · cases ha
  · next m hm =>
    cases ha
    -- nobody is in line while a slot is free
    have hw : s.waiting = [] := prompt.resolve_left (by omega)
    exact ⟨by dsimp only; omega, line, .inr hw⟩

theorem Lends.acquire_waiting (h : s.Lends n k w) (ha : s.acquire t = (s', false)) :
    s'.Lends n k (t :: w) := by
  obtain ⟨total, line, prompt⟩ := h
  unfold acquire at ha; split at ha
  · next hm =>
    cases ha
    refine ⟨total, ?_, .inl hm⟩
    rw [List.append_assoc]
    exact List.perm_middle.trans (line.cons t)
  · cases ha

theorem Lends.request (h : s.Lends n k w) (t : Ticket) : (s.request t).Lends n k (t :: w) := by
  obtain ⟨total, line, prompt⟩ := h
  unfold Slots.request; split
  · next hf =>
    refine ⟨total, ?_, .inl hf⟩
    rw [List.append_assoc]
    exact List.perm_middle.trans (line.cons t)
  · next m hm =>
    have hw : s.waiting = [] := prompt.resolve_left (by omega)
    refine ⟨by simp only [List.length_append, List.length_singleton]; omega, ?_, .inr hw⟩
    rw [← List.append_assoc]
    exact (List.perm_append_singleton t _).trans (line.cons t)

theorem Lends.release (h : s.Lends n (k + 1) w) : s.release.1.Lends n k w := by
  obtain ⟨total, line, prompt⟩ := h
  unfold Slots.release; split
  · next hw => exact ⟨by dsimp only; omega, line, .inr hw⟩
  · next t r hw =>
    -- somebody is in line, so no slot was free and this one is not either
    have hf : s.free = 0 := prompt.resolve_right (by simp [hw])
    refine ⟨by simp only [List.length_append, List.length_singleton]; omega, ?_, .inl hf⟩
    rw [hw] at line
    rw [← List.append_assoc]
    exact (List.perm_append_singleton t _).trans line

theorem perm_erase_handed (h : t ∈ s.handed) (hw : (s.waiting ++ s.handed).Perm (t :: w)) :
    (s.waiting ++ s.handed.erase t).Perm w := by
  have he := (List.perm_cons_erase h).append_left s.waiting
  exact ((List.perm_middle.symm.trans he.symm).trans hw).cons_inv

theorem Lends.resume (h : s.Lends n k (t :: w)) (hr : s.resume? t = some s') :
    s'.Lends n (k + 1) w := by
  obtain ⟨total, line, prompt⟩ := h
  unfold resume? at hr; split at hr
  · next hm =>
    cases hr
    have := List.length_pos_of_mem hm
    refine ⟨?_, perm_erase_handed hm line, prompt⟩
    simp only [List.length_erase_of_mem hm]; omega
  · cases hr

theorem Lends.abandon (h : s.Lends n k (t :: w)) : (s.abandon t).1.Lends n k w := by
  obtain ⟨total, line, prompt⟩ := h
  unfold Slots.abandon; split
  · next hm =>
    -- for a moment nobody has the slot, as if a permit for it had been held
    have := List.length_pos_of_mem hm
    refine Lends.release ⟨?_, perm_erase_handed hm line, prompt⟩
    simp only [List.length_erase_of_mem hm]; omega
  · next hm =>
    have hw : t ∈ s.waiting := by simpa [hm] using line.symm.subset List.mem_cons_self
    refine ⟨total, ?_, prompt.imp_right fun hn => by simp [hn] at hw⟩
    exact (((List.perm_cons_erase hw).symm.append_right s.handed).trans line).cons_inv

theorem Lends.perm {w' : List Ticket} (h : s.Lends n k w) (hw : w.Perm w') : s.Lends n k w' :=
  ⟨h.total, h.line.trans hw, h.prompt⟩

theorem Lends.opened (n : Nat) : ({ free := n } : Slots).Lends n 0 [] := ⟨rfl, .rfl, .inr rfl⟩

/-- While no slot is held somebody in line was handed one. -/
theorem Lends.exists_handed (h : s.Lends n 0 w) (hn : n ≠ 0) (hw : w ≠ []) :
    ∃ t ∈ w, t ∈ s.handed := by
  obtain ⟨total, line, prompt⟩ := h
  cases hh : s.handed with
  | cons t r => exact ⟨t, line.subset (by simp [hh]), List.mem_cons_self⟩
  | nil =>
    have hf : s.free ≠ 0 := by rw [hh, List.length_nil] at total; omega
    have hs : s.waiting = [] := prompt.resolve_left hf
    rw [hs, hh] at line
    exact absurd line.symm.eq_nil hw

end Slots

end Courier
