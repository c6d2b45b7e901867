import Courier.Config.Basic
import Mathlib.Data.List.Induction

/-!
# The last option for a field decides it

An option writes one field and leaves the others. So a field of a resolved
configuration depends on the last option that addresses it alone, and it has its
default if that leaves it at its zero value. No default is a zero value, so
filling in the defaults again changes nothing.
-/

namespace Courier

/-! ## Fields -/

inductive Config.Field where
  | finder
  | host
  | providerTimeout
  | concurrentRetrievals
  | globalTimeout
  | networkOptions
  | protocols
  | blockList
  | allowList
  | concurrency
  | concurrencyPerRetrieval
  deriving DecidableEq, Repr

namespace Config

namespace Field

def Value : Field → Type
  | .finder | .host => Option Collaborator
  | .providerTimeout | .globalTimeout => Duration
  | .concurrentRetrievals | .concurrency | .concurrencyPerRetrieval => UInt64
  | .networkOptions => Json.Object
  | .protocols => List Protocol
  | .blockList | .allowList => Option ProviderSet

/-- What a field has that nobody set. -/
def zero : (f : Field) → f.Value
  | .finder | .host | .blockList | .allowList => none
  | .providerTimeout | .globalTimeout => Duration.zero
  | .concurrentRetrievals | .concurrency | .concurrencyPerRetrieval => (0 : UInt64)
  | .networkOptions | .protocols => []

/-- What a field is given that is still zero, if anything. -/
def default? : (f : Field) → Option f.Value
  | .providerTimeout => some (Duration.ofSecs 20)
  | .protocols => some [.bitswap, .graphsync, .http]
  | .concurrency => some (32 : UInt64)
  | .concurrencyPerRetrieval => some (12 : UInt64)
  | .finder | .host | .concurrentRetrievals | .globalTimeout | .networkOptions | .blockList
  | .allowList => none

end Field

def get (c : Config) : (f : Field) → f.Value
  | .finder => c.finder
  | .host => c.host
  | .providerTimeout => c.providerTimeout
  | .concurrentRetrievals => c.concurrentRetrievals
  | .globalTimeout => c.globalTimeout
  | .networkOptions => c.networkOptions
  | .protocols => c.protocols
  | .blockList => c.blockList
  | .allowList => c.allowList
  | .concurrency => c.concurrency
  | .concurrencyPerRetrieval => c.concurrencyPerRetrieval

theorem eq_of_get {c c' : Config} (h : ∀ f, c.get f = c'.get f) : c = c' := by
  rw [mk.injEq]
  exact ⟨h .finder, h .host, h .providerTimeout, h .concurrentRetrievals, h .globalTimeout,
    h .networkOptions, h .protocols, h .blockList, h .allowList, h .concurrency,
    h .concurrencyPerRetrieval⟩

end Config

namespace ConfigOption

/-- The field an option addresses. -/
def field : ConfigOption → Config.Field
  | .finder _ => .finder
  | .host _ => .host
  | .providerTimeout _ => .providerTimeout
  | .concurrentRetrievals _ => .concurrentRetrievals
  | .globalTimeout _ => .globalTimeout
  | .networkOptions _ => .networkOptions
  | .protocols _ => .protocols
  | .blockList _ => .blockList
  | .allowList _ => .allowList
  | .concurrency _ => .concurrency
  | .concurrencyPerRetrieval _ => .concurrencyPerRetrieval

/-- The value an option carries. -/
def value : (o : ConfigOption) → o.field.Value
  | .finder c | .host c => some c
  | .providerTimeout d | .globalTimeout d => d
  | .concurrentRetrievals n | .concurrency n | .concurrencyPerRetrieval n => n
  | .networkOptions o => o
  | .protocols l => l
  | .blockList s | .allowList s => s

/-- What an option writes to a field, if it addresses it. -/
def write? (f : Config.Field) (o : ConfigOption) : Option f.Value :=
  if h : o.field = f then some (h ▸ o.value) else none

theorem write?_of_ne {f : Config.Field} {o : ConfigOption} (h : o.field ≠ f) : o.write? f = none :=
  dif_neg h

end ConfigOption

namespace Config

/-- The value of the last option that addresses a field. -/
def lastWrite (f : Field) (os : List ConfigOption) : Option f.Value :=
  os.reverse.findSome? (·.write? f)

theorem lastWrite_snoc (f : Field) (os : List ConfigOption) (o : ConfigOption) :
    lastWrite f (os ++ [o]) = (o.write? f).or (lastWrite f os) := by
  rw [lastWrite, List.reverse_append, List.reverse_singleton, List.singleton_append,
    List.findSome?_cons]
  cases o.write? f <;> rfl

variable {c c' : Config} {f : Field} {o o' : ConfigOption} {os os' : List ConfigOption}

/-! ## Applying options -/

/-- An option writes its own field and no other. -/
theorem get_apply (c : Config) (o : ConfigOption) (f : Field) :
    (c.apply o).get f = (o.write? f).getD (c.get f) := by
  cases o <;> cases f <;> rfl

theorem get_foldl (c : Config) (os : List ConfigOption) (f : Field) :
    (os.foldl apply c).get f = (lastWrite f os).getD (c.get f) := by
  induction os using List.reverseRecOn with
  | nil => rfl
  | append_singleton os o ih =>
    rw [List.foldl_append, List.foldl_cons, List.foldl_nil, get_apply, ih, lastWrite_snoc]
    cases o.write? f <;> rfl

theorem apply_comm (h : o.field ≠ o'.field) (c : Config) :
    (c.apply o).apply o' = (c.apply o').apply o := by
  refine eq_of_get fun f => ?_
  rw [get_apply, get_apply, get_apply, get_apply]
  by_cases ho : o.field = f
  · rw [ConfigOption.write?_of_ne fun ho' => h (ho.trans ho'.symm)]
    rfl
  · rw [ConfigOption.write?_of_ne ho]
    rfl

/-! ## Filling in defaults -/

theorem isZero_iff {d : Duration} : d.isZero = true ↔ d = Duration.zero := decide_eq_true_iff

theorem get_setDefaults_of_zero {d : f.Value} (hd : f.default? = some d) (h : c.get f = f.zero) :
    c.setDefaults.get f = d := by
  cases f with
  | providerTimeout => cases hd; exact if_pos (isZero_iff.2 h)
  | protocols => cases hd; exact if_pos (List.isEmpty_iff.2 h)
  | concurrency => cases hd; exact if_pos h
  | concurrencyPerRetrieval => cases hd; exact if_pos h
  | _ => cases hd

theorem get_setDefaults_of_none (hd : f.default? = none) : c.setDefaults.get f = c.get f := by
  cases f with
  | providerTimeout | protocols | concurrency | concurrencyPerRetrieval => cases hd
  | _ => rfl

theorem get_setDefaults_of_ne (h : c.get f ≠ f.zero) : c.setDefaults.get f = c.get f := by
  cases f with
  | providerTimeout => exact if_neg fun hz => h (isZero_iff.1 hz)
  | protocols => exact if_neg fun hz => h (List.isEmpty_iff.1 hz)
  | concurrency => exact if_neg h
  | concurrencyPerRetrieval => exact if_neg h
  | _ => rfl

theorem default_ne_zero {d : f.Value} (hd : f.default? = some d) : d ≠ f.zero := by
  cases f with
  | providerTimeout =>
    cases hd
    exact (by decide : Duration.ofSecs 20 ≠ Duration.zero)
  | protocols => cases hd; exact List.cons_ne_nil _ _
  | concurrency => cases hd; exact (by decide : (32 : UInt64) ≠ 0)
  | concurrencyPerRetrieval => cases hd; exact (by decide : (12 : UInt64) ≠ 0)
  | _ => cases hd

theorem setDefaults_setDefaults (c : Config) : c.setDefaults.setDefaults = c.setDefaults := by
  refine eq_of_get fun f => ?_
  by_cases h : c.setDefaults.get f = f.zero
  · cases hd : f.default? with
    | none => exact get_setDefaults_of_none hd
    | some d =>
      -- a field with a default that is zero still would have been given it
      have hc : c.get f = f.zero := by
        by_contra hc
        exact hc ((get_setDefaults_of_ne hc).symm.trans h)
      exact absurd ((get_setDefaults_of_zero hd hc).symm.trans h) (default_ne_zero hd)
  · exact get_setDefaults_of_ne h

theorem default?_of_setDefaults_ne (h : c.setDefaults.get f ≠ c.get f) :
    c.get f = f.zero ∧ f.default? = some (c.setDefaults.get f) := by
  have hc : c.get f = f.zero := by
    by_contra hc
    exact h (get_setDefaults_of_ne hc)
  cases hd : f.default? with
  | none => exact absurd (get_setDefaults_of_none hd) h
  | some d => rw [get_setDefaults_of_zero hd hc]; exact ⟨hc, rfl⟩

theorem resolve_congr (h : ∀ f, lastWrite f os = lastWrite f os') : resolve os = resolve os' := by
  have hf : os.foldl apply {} = os'.foldl apply {} :=
    eq_of_get fun f => by rw [get_foldl, get_foldl, h f]
  rw [resolve, resolve, hf]

/-- A field of a resolved configuration has the value of the last option for it, or its default if
that is zero and it has one. So the other options do not matter, nor the order of options for
different fields, nor filling in the defaults again, which is all that changes a configuration:
four fields, where they are zero. -/
theorem resolve_last_wins :
    (∀ os f, let v := (lastWrite f os).getD f.zero
      (v = f.zero → ∀ d, f.default? = some d → (resolve os).get f = d) ∧
      (v ≠ f.zero ∨ f.default? = none → (resolve os).get f = v)) ∧
    (∀ os os', (∀ f, lastWrite f os = lastWrite f os') → resolve os = resolve os') ∧
    (∀ os o o' os', o.field ≠ o'.field →
      resolve (os ++ o :: o' :: os') = resolve (os ++ o' :: o :: os')) ∧
    (∀ os, (resolve os).setDefaults = resolve os) ∧
    (∀ (c : Config) (f : Field), c.setDefaults.get f ≠ c.get f → c.get f = f.zero ∧
      f ∈ [.providerTimeout, .protocols, .concurrency, .concurrencyPerRetrieval] ∧
      f.default? = some (c.setDefaults.get f)) := by
  refine ⟨fun os f => ?_, fun os os' h => resolve_congr h, fun os o o' os' h => ?_,
    fun os => setDefaults_setDefaults _, fun c f h => ?_⟩
  · have hv : (os.foldl apply {}).get f = (lastWrite f os).getD f.zero := by
      rw [get_foldl]
      cases f <;> rfl
    refine ⟨fun hz d hd => get_setDefaults_of_zero hd (hv.trans hz), fun h => ?_⟩
    refine Eq.trans ?_ hv
    rcases h with h | h
    · exact get_setDefaults_of_ne (hv ▸ h)
    · exact get_setDefaults_of_none h
  · rw [resolve, resolve, List.foldl_append, List.foldl_append]
    simp only [List.foldl_cons, apply_comm h]
  · obtain ⟨hc, hd⟩ := default?_of_setDefaults_ne h
    refine ⟨hc, ?_, hd⟩
    cases f with
    | providerTimeout | protocols | concurrency | concurrencyPerRetrieval => decide
    | _ => cases hd

end Config

end Courier
