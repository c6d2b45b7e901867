import Mathlib.Data.List.Nodup
import Mathlib.Data.List.Perm.Basic

/-!
# Lists with distinct keys

Looking up, changing or removing the element of a key touches no other element.
Up to the order of the list it is one element and the others.
-/

namespace Courier.Keyed

variable {α κ : Type} [DecidableEq κ] {key : α → κ} {l l₁ l₂ : List α} {x y : α} {t : κ}

theorem exists_split (hl : (l.map key).Nodup) (hx : l.find? (key · = t) = some x) :
    ∃ l₁ l₂, l = l₁ ++ x :: l₂ ∧ key x = t ∧ ∀ y ∈ l₁ ++ l₂, key y ≠ t := by
  obtain ⟨ht, l₁, l₂, rfl, -⟩ := List.find?_eq_some_iff_append.1 hx
  have ht : key x = t := by simpa using ht
  refine ⟨l₁, l₂, rfl, ht, fun y hy hyt => ?_⟩
  -- under its key another element would stand in the list twice
  have hp : ((x :: (l₁ ++ l₂)).map key).Nodup := (List.perm_middle.map _).nodup_iff.1 hl
  rw [List.map_cons, List.nodup_cons] at hp
  exact hp.1 (List.mem_map.2 ⟨y, hy, hyt.trans ht.symm⟩)

theorem filter_split (hx : key x = t) (h : ∀ y ∈ l₁ ++ l₂, key y ≠ t) :
    (l₁ ++ x :: l₂).filter (key · ≠ t) = l₁ ++ l₂ := by
  have h₁ : l₁.filter (key · ≠ t) = l₁ :=
    List.filter_eq_self.2 fun y hy => by simpa using h y (List.mem_append_left _ hy)
  have h₂ : l₂.filter (key · ≠ t) = l₂ :=
    List.filter_eq_self.2 fun y hy => by simpa using h y (List.mem_append_right _ hy)
  rw [List.filter_append, List.filter_cons_of_neg (by simp [hx]), h₁, h₂]

theorem map_split (f : α → α) (hx : key x = t) (h : ∀ y ∈ l₁ ++ l₂, key y ≠ t) :
    (l₁ ++ x :: l₂).map (fun y => if key y = t then f y else y) = l₁ ++ f x :: l₂ := by
  have same {l : List α} (hl : ∀ y ∈ l, key y ≠ t) :
      l.map (fun y => if key y = t then f y else y) = l :=
    (List.map_congr_left fun y hy => if_neg (hl y hy)).trans (List.map_id l)
  rw [List.map_append, List.map_cons, if_pos hx, same fun y hy => h y (List.mem_append_left _ hy),
    same fun y hy => h y (List.mem_append_right _ hy)]

/-! ## One element and the others -/

theorem find?_of_mem (hl : (l.map key).Nodup) (hx : x ∈ l) : l.find? (key · = key x) = some x := by
  cases hf : l.find? (key · = key x) with
  | none => simpa using List.find?_eq_none.1 hf x hx
  | some y =>
    have hy : key y = key x := by simpa using List.find?_some hf
    exact congrArg some (List.inj_on_of_nodup_map hl (List.mem_of_find?_eq_some hf) hx hy)

theorem perm_filter (hl : (l.map key).Nodup) (hx : x ∈ l) :
    l.Perm (x :: l.filter (key · ≠ key x)) := by
  obtain ⟨l₁, l₂, rfl, -, hne⟩ := exists_split hl (find?_of_mem hl hx)
  rw [filter_split rfl hne]
  exact List.perm_middle

theorem perm_map (f : α → α) (hl : (l.map key).Nodup) (hx : x ∈ l) :
    (l.map fun y => if key y = key x then f y else y).Perm (f x :: l.filter (key · ≠ key x)) := by
  obtain ⟨l₁, l₂, rfl, -, hne⟩ := exists_split hl (find?_of_mem hl hx)
  rw [filter_split rfl hne, map_split f rfl hne]
  exact List.perm_middle

end Courier.Keyed
