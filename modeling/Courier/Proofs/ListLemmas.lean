import Mathlib.Data.List.Basic

/-!
# Lists that one was added to

Histories and tables grow at their end. An element of a list that one was added
to is that one, or stands where it stood before.
-/

namespace Courier

variable {α : Type} {l l₁ l₂ : List α} {x y : α} {i : Nat}

theorem snoc_eq_append_cons (h : l ++ [x] = l₁ ++ y :: l₂) :
    l₁ = l ∧ y = x ∧ l₂ = [] ∨ ∃ l₃, l = l₁ ++ y :: l₃ ∧ l₂ = l₃ ++ [x] := by
  rcases List.eq_nil_or_concat' l₂ with rfl | ⟨l₃, z, rfl⟩
  · obtain ⟨rfl, hx⟩ := List.append_inj' h rfl
    exact .inl ⟨rfl, (List.singleton_inj.mp hx).symm, rfl⟩
  · rw [← List.cons_append, ← List.append_assoc] at h
    obtain ⟨rfl, hx⟩ := List.append_inj' h rfl
    exact .inr ⟨l₃, rfl, by rw [List.singleton_inj.mp hx]⟩

theorem getElem?_snoc (h : (l ++ [x])[i]? = some y) : l[i]? = some y ∨ i = l.length ∧ y = x := by
  rcases Nat.lt_or_ge i l.length with hi | hi
  · rw [List.getElem?_append_left hi] at h
    exact .inl h
  · rw [List.getElem?_append_right hi, List.getElem?_singleton] at h
    split at h
    · exact .inr ⟨by omega, (Option.some.inj h).symm⟩
    · cases h

end Courier
