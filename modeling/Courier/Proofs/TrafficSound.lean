import Mathlib.Data.List.Perm.Subperm
import Courier.Proofs.FallbackSound
import Courier.Proofs.LendingSound
import Courier.Traffic

/-!
# No provider has more traffic than it allows

A call has one loan, made under its ticket, until it gives that back, and every
loan is that of a call. The loan of a call that is past its wait has a permit,
and no provider has more permits than its limit.
-/

namespace Courier

/-! ## Loans after a step of the session -/

namespace Lending

variable {l l' : Lending} {t : Ticket} {x : Loan}

theorem start_loans (l : Lending) (p : ProviderId) (t : Ticket) :
    ∃ permit, (l.start p t).1.loans = l.loans ++ [⟨t, p, permit⟩] := ⟨_, rfl⟩

theorem stop_loans (l : Lending) (t : Ticket) :
    (l.stop t).1.loans = l.loans.filter (·.ticket ≠ t) := by
  unfold stop
  cases hx : l.loan? t with
  | none =>
    refine (List.filter_eq_self.mpr fun y hy => ?_).symm
    simpa using List.find?_eq_none.mp hx y hy
  | some x =>
    dsimp only
    split <;> rfl

theorem resume?_loans (h : l.resume? t = some l') :
    l'.loans = l.loans.map fun y => if y.ticket = t then { y with permit := some true } else y := by
  unfold resume? at h
  cases hx : l.loan? t with
  | none => simp [hx] at h
  | some x =>
    simp only [hx, Option.bind_eq_bind, Option.bind_some] at h
    split at h
    · cases h
    · cases hs : l.session.resume? x.provider t with
      | none => simp [hs] at h
      | some s =>
        simp only [hs, Option.bind_some, Option.pure_def, Option.some.injEq] at h
        rw [← h]

theorem Sound.loan? (h : l.Sound) (hx : x ∈ l.loans) : l.loan? x.ticket = some x :=
  Keyed.find?_of_mem h.kept.tickets hx

theorem Sound.unique (h : l.Sound) {y : Loan} (hx : x ∈ l.loans) (hy : y ∈ l.loans)
    (ht : x.ticket = y.ticket) : x = y :=
  List.inj_on_of_nodup_map h.kept.tickets hx hy ht

end Lending

namespace Traffic

open Fallback (Effect Verdict Fresh Leads)

/-! ## Calls and their loans -/

/-- How a call stands to the loans: it has none, it has one and goes on with it, or it has one that
it is about to give back. -/
inductive Proper (loans : List Loan) (c : Call) : Prop where
  | free : c.ticket = none → Fresh c.kind.transport (c.todo, c.next) → Proper loans c
  | stays {f : Fallback c.kind.Phase} {x : Loan} : x ∈ loans → c.ticket = some x.ticket →
      (∀ e ∈ c.todo, ∃ what, e = .tell what) → c.next = .goes f →
      x.provider = f.candidate.provider →
      (c.kind.transport.demand f.phase ≠ .permit → x.permit.isSome) → Proper loans c
  | leaves {told todo : List Effect} {x : Loan} : x ∈ loans → c.ticket = some x.ticket →
      (∀ e ∈ told, ∃ what, e = .tell what) → c.todo = told ++ .leave :: todo →
      Fresh c.kind.transport (todo, c.next) → Proper loans c

/-- What holds of the calls on a live session whose providers have these limits. -/
structure Sound (limit : ProviderId → Nat) (t : Traffic) : Prop where
  lending : t.lending.Sound
  limits : t.lending.session.limit = limit
  keys : (t.calls.map (·.key)).Nodup
  issued : ∀ c ∈ t.calls, ∀ s, c.ticket = some s → t.issued[s]? = some c.key
  proper : ∀ c ∈ t.calls, Proper t.lending.loans c
  call : ∀ x ∈ t.lending.loans, ∃ c ∈ t.calls, c.ticket = some x.ticket

variable {limit : ProviderId → Nat} {t : Traffic} {c d : Call} {x : Loan}

theorem sound_opened (policy : Policy) (capacity : Option Nat) :
    (opened policy capacity).Sound fun p => (policy.configOf p).limit.toNat where
  lending := Lending.sound_opened policy capacity
  limits := rfl
  keys := List.nodup_nil
  issued := nofun
  proper := nofun
  call := nofun

theorem mem_others {key : Nat} : d ∈ t.others key ↔ d ∈ t.calls ∧ d.key ≠ key := by
  rw [others, List.mem_filter, decide_eq_true_eq]

theorem Sound.eq_of_key (h : t.Sound limit) (hc : c ∈ t.calls) (hd : d ∈ t.calls)
    (hk : c.key = d.key) : c = d :=
  List.inj_on_of_nodup_map h.keys hc hd hk

/-- Calls with one ticket are one call. -/
theorem Sound.eq_of_ticket (h : t.Sound limit) (hc : c ∈ t.calls) (hd : d ∈ t.calls) {s : Ticket}
    (hcs : c.ticket = some s) (hds : d.ticket = some s) : c = d := by
  have hk := (h.issued c hc s hcs).symm.trans (h.issued d hd s hds)
  exact h.eq_of_key hc hd (Option.some.inj hk)

/-- A loan that is not that of the call of a key is that of another call. -/
theorem Sound.other_call (h : t.Sound limit) (hx : x ∈ t.lending.loans) {key : Nat}
    (hk : ∀ d ∈ t.calls, d.key = key → d.ticket ≠ some x.ticket) :
    ∃ d ∈ t.others key, d.ticket = some x.ticket := by
  obtain ⟨d, hd, hs⟩ := h.call x hx
  exact ⟨d, mem_others.mpr ⟨hd, fun hdk => hk d hd hdk hs⟩, hs⟩

theorem Sound.ticket_of_key (h : t.Sound limit) (hc : c ∈ t.calls) {s : Option Ticket}
    (hs : c.ticket = s) : ∀ d ∈ t.calls, d.key = c.key → d.ticket = s := by
  intro d hd hk
  rwa [h.eq_of_key hd hc hk]

theorem Sound.ticket_lt (h : t.Sound limit) (hx : x ∈ t.lending.loans) :
    x.ticket < t.issued.length := by
  obtain ⟨c, hc, hs⟩ := h.call x hx
  exact (List.getElem?_eq_some_iff.mp (h.issued c hc _ hs)).1

/-- A call stands as it did as long as its loan stays what it is for it. -/
theorem Proper.congr {loans loans' : List Loan} (h : Proper loans c)
    (hl : ∀ x ∈ loans, c.ticket = some x.ticket → ∃ y ∈ loans', y.ticket = x.ticket ∧
      y.provider = x.provider ∧ (x.permit.isSome → y.permit.isSome)) : Proper loans' c := by
  cases h with
  | free ht hf => exact .free ht hf
  | stays hx ht htold hn hp hd =>
    obtain ⟨y, hy, hyt, hyp, hys⟩ := hl _ hx ht
    exact .stays hy (hyt ▸ ht) htold hn (hyp.trans hp) fun h => hys (hd h)
  | leaves hx ht htold htodo hf =>
    obtain ⟨y, hy, hyt, -, -⟩ := hl _ hx ht
    exact .leaves hy (hyt ▸ ht) htold htodo hf

/-! ## The session changes -/

/-- The session may change as long as the loans stay what they are for the calls. -/
theorem Sound.lend (h : t.Sound limit) {l : Lending} (hl : l.Sound)
    (hlimit : l.session.limit = t.lending.session.limit) (f : Loan → Loan)
    (hf : ∀ x, (f x).ticket = x.ticket ∧ (f x).provider = x.provider ∧
      (x.permit.isSome → (f x).permit.isSome))
    (hloans : l.loans = t.lending.loans.map f) : Sound limit { t with lending := l } where
  lending := hl
  limits := hlimit.trans h.limits
  keys := h.keys
  issued := h.issued
  proper c hc := (h.proper c hc).congr fun x hx _ =>
    ⟨f x, hloans ▸ List.mem_map_of_mem hx, (hf x).1, (hf x).2.1, (hf x).2.2⟩
  call x hx := by
    obtain ⟨y, hy, rfl⟩ := List.mem_map.mp (hloans ▸ hx)
    obtain ⟨c, hc, ht⟩ := h.call y hy
    exact ⟨c, hc, by rw [ht, (hf y).1]⟩

theorem Sound.record (h : t.Sound limit) (a : Lending.Action)
    (ha : (t.lending.act a).1.loans = t.lending.loans) :
    Sound limit { t with lending := (t.lending.act a).1 } := by
  obtain ⟨hl, hlimit⟩ := h.lending.act a
  exact h.lend hl hlimit id (fun x => ⟨rfl, rfl, id⟩) (by rw [ha, List.map_id])

theorem Sound.resume (h : t.Sound limit) {s : Ticket} {l : Lending}
    (hr : t.lending.resume? s = some l) : Sound limit { t with lending := l } := by
  have ha : t.lending.act (.resume s) = (l, .resumed) := by
    simp [Lending.act, hr]
  obtain ⟨hl, hlimit⟩ := h.lending.act (.resume s)
  rw [ha] at hl hlimit
  refine h.lend hl hlimit _ (fun x => ?_) (Lending.resume?_loans hr)
  split <;> simp

/-! ## Calls come, go and change -/

theorem Sound.jam (h : t.Sound limit) : Sound limit { t with jammed := true } :=
  ⟨h.lending, h.limits, h.keys, h.issued, h.proper, h.call⟩

/-- A call that gives back what it has may go. -/
theorem Sound.gone (h : t.Sound limit) (hc : c ∈ t.calls) :
    ((t.release c).remove c).Sound limit := by
  have hkeys : ((t.others c.key).map (·.key)).Nodup := h.keys.sublist (List.filter_sublist.map _)
  unfold release
  cases hs : c.ticket with
  | none =>
    refine ⟨h.lending, h.limits, hkeys, fun d hd => h.issued d (mem_others.mp hd).1,
      fun d hd => h.proper d (mem_others.mp hd).1, fun x hx => h.other_call hx fun d hd hk => ?_⟩
    simp [h.ticket_of_key hc hs d hd hk]
  | some s =>
    obtain ⟨hl, hlimit⟩ := h.lending.act (.stop s)
    have hmem {x : Loan} : x ∈ (t.lending.stop s).1.loans ↔ x ∈ t.lending.loans ∧ x.ticket ≠ s := by
      rw [Lending.stop_loans, List.mem_filter, decide_eq_true_eq]
    refine ⟨hl, hlimit.trans h.limits, hkeys, fun d hd => h.issued d (mem_others.mp hd).1,
      fun d hd => ?_, fun x hx => ?_⟩
    · obtain ⟨hd, hk⟩ := mem_others.mp hd
      refine (h.proper d hd).congr fun x hx ht => ⟨x, hmem.mpr ⟨hx, fun hxs => hk ?_⟩, rfl, rfl, id⟩
      rw [h.eq_of_ticket hd hc ht (hxs ▸ hs)]
    · obtain ⟨hx, hxs⟩ := hmem.mp hx
      refine h.other_call hx fun d hd hk ht => hxs ?_
      exact Option.some.inj (ht.symm.trans (h.ticket_of_key hc hs d hd hk))

theorem Sound.remove (h : t.Sound limit) (hc : c ∈ t.calls) (hs : c.ticket = none) :
    (t.remove c).Sound limit := by
  have := h.gone hc
  rwa [release, hs] at this

theorem nodup_keys_put (h : (t.calls.map (·.key)).Nodup) (c : Call) :
    (((t.put c).calls).map (·.key)).Nodup := by
  rw [put, List.map_append, List.nodup_append]
  refine ⟨h.sublist (List.filter_sublist.map _), List.nodup_singleton _, fun a ha b hb => ?_⟩
  obtain ⟨d, hd, rfl⟩ := List.mem_map.mp ha
  rw [List.mem_singleton.mp hb]
  exact (mem_others.mp hd).2

theorem mem_put : d ∈ (t.put c).calls ↔ d ∈ t.others c.key ∨ d = c := by
  rw [put, List.mem_append, List.mem_singleton]

/-- A call that has no loan comes, or takes the place of one that had none. -/
theorem Sound.putFree (h : t.Sound limit) (hk : ∀ d ∈ t.calls, d.key = c.key → d.ticket = none)
    (hs : c.ticket = none) (hf : Fresh c.kind.transport (c.todo, c.next)) :
    (t.put c).Sound limit := by
  refine ⟨h.lending, h.limits, nodup_keys_put h.keys c, fun d hd => ?_, fun d hd => ?_,
    fun x hx => ?_⟩
  · rcases mem_put.mp hd with hd | rfl
    · exact h.issued d (mem_others.mp hd).1
    · rw [hs]
      nofun
  · rcases mem_put.mp hd with hd | rfl
    · exact h.proper d (mem_others.mp hd).1
    · exact .free hs hf
  · obtain ⟨d, hd, ht⟩ := h.other_call hx fun d hd hdk => by simp [hk d hd hdk]
    exact ⟨d, mem_put.mpr (.inl hd), ht⟩

/-- A call changes and keeps its loan. -/
theorem Sound.putSame (h : t.Sound limit) (hc : c ∈ t.calls) (hk : d.key = c.key)
    (hs : d.ticket = c.ticket) (hp : Proper t.lending.loans d) : (t.put d).Sound limit := by
  refine ⟨h.lending, h.limits, nodup_keys_put h.keys d, fun e he => ?_, fun e he => ?_,
    fun x hx => ?_⟩
  · rcases mem_put.mp he with he | rfl
    · exact h.issued e (mem_others.mp he).1
    · rw [hk, hs]
      exact h.issued c hc
  · rcases mem_put.mp he with he | rfl
    · exact h.proper e (mem_others.mp he).1
    · exact hp
  · obtain ⟨e, he, ht⟩ := h.call x hx
    by_cases hek : e.key = d.key
    · refine ⟨d, mem_put.mpr (.inr rfl), ?_⟩
      rw [hs, ← h.eq_of_key he hc (hek.trans hk), ht]
    · exact ⟨e, mem_put.mpr (.inl (mem_others.mpr ⟨he, hek⟩)), ht⟩

/-- A call that has no loan begins to wait for a permit. -/
theorem Sound.ask (h : t.Sound limit) (hc : c ∈ t.calls) (hs : c.ticket = none)
    {f : Fallback c.kind.Phase} (htodo : c.todo = []) (hn : c.next = .goes f)
    (hdemand : c.kind.transport.demand f.phase = .permit) :
    (t.ask c f.candidate.provider).Sound limit := by
  have hnone : t.lending.loan? t.issued.length = none := by
    refine List.find?_eq_none.mpr fun x hx => ?_
    simpa using Nat.ne_of_lt (h.ticket_lt hx)
  obtain ⟨hl, hlimit⟩ := h.lending.act (.start f.candidate.provider t.issued.length)
  simp only [Lending.act, hnone, Option.isSome_none, Bool.false_eq_true, if_false] at hl hlimit
  obtain ⟨permit, hloans⟩ := t.lending.start_loans f.candidate.provider t.issued.length
  have hmem {x : Loan} : x ∈ (t.lending.start f.candidate.provider t.issued.length).1.loans ↔
      x ∈ t.lending.loans ∨ x = ⟨t.issued.length, f.candidate.provider, permit⟩ := by
    rw [hloans, List.mem_append, List.mem_singleton]
  refine ⟨hl, hlimit.trans h.limits, nodup_keys_put (t := { t with lending := _, issued := _ })
    h.keys _, fun d hd s hds => ?_, fun d hd => ?_, fun x hx => ?_⟩
  · rcases List.mem_append.mp hd with hd | hd
    · have hi := h.issued d (mem_others.mp hd).1 s hds
      change (t.issued ++ [c.key])[s]? = _
      rw [List.getElem?_append_left (List.getElem?_eq_some_iff.mp hi).1]
      exact hi
    · obtain rfl := List.mem_singleton.mp hd
      cases hds
      exact List.getElem?_concat_length
  · rcases List.mem_append.mp hd with hd | hd
    · exact (h.proper d (mem_others.mp hd).1).congr fun x hx _ =>
        ⟨x, hmem.mpr (.inl hx), rfl, rfl, id⟩
    · obtain rfl := List.mem_singleton.mp hd
      refine .stays (hmem.mpr (.inr rfl)) rfl ?_ hn rfl (absurd hdemand)
      simp [htodo]
  · rcases hmem.mp hx with hx | rfl
    · obtain ⟨d, hd, ht⟩ := h.other_call hx fun d hd hk => by
        simp [h.ticket_of_key hc hs d hd hk]
      exact ⟨d, List.mem_append_left _ hd, ht⟩
    · exact ⟨_, List.mem_append_right _ List.mem_cons_self, rfl⟩

/-! ## What a call does -/

/-- What a call has to do first, and how it stands after that. -/
theorem Proper.head {loans : List Loan} {e : Effect} {todo : List Effect} (h : Proper loans c)
    (he : c.todo = e :: todo) :
    (∃ what, e = .tell what) ∧ Proper loans { c with todo } ∨
      e = .leave ∧ Fresh c.kind.transport (todo, c.next) ∨
      e ≠ .leave ∧ c.ticket = none ∧ Fresh c.kind.transport (todo, c.next) := by
  cases h with
  | free ht hf =>
    have hkeeps : .leave ∉ e :: todo := he ▸ hf.keeps
    exact .inr (.inr ⟨fun h => hkeeps (h ▸ List.mem_cons_self), ht,
      fun hm => hkeeps (List.mem_cons_of_mem _ hm), hf.waits⟩)
  | stays hx ht htold hn hp hd =>
    rw [he] at htold
    refine .inl ⟨htold e List.mem_cons_self, .stays hx ht (fun e' he' => ?_) hn hp hd⟩
    exact htold e' (List.mem_cons_of_mem _ he')
  | @leaves told todo' x hx ht htold htodo hf =>
    rw [he] at htodo
    cases told with
    | nil =>
      cases htodo
      exact .inr (.inl ⟨rfl, hf⟩)
    | cons e' told =>
      cases htodo
      refine .inl ⟨htold e List.mem_cons_self, .leaves hx ht (fun e' he' => ?_) rfl hf⟩
      exact htold e' (List.mem_cons_of_mem _ he')

theorem remove_put (hk : d.key = c.key) : (t.remove c).put d = t.put d := by
  simp [put, remove, others, hk, List.filter_filter]

theorem Sound.orCrash (h : t.Sound limit) (hc : c ∈ t.calls) (hs : c.ticket = none) (p : ProviderId)
    {next : Traffic} (hn : next.Sound limit) : (t.orCrash c p next).Sound limit := by
  unfold Traffic.orCrash
  split
  · exact (h.remove hc hs).jam
  · exact hn

theorem Sound.recorded (h : t.Sound limit) (hc : c ∈ t.calls) {e : Effect} {todo : List Effect}
    (he : c.todo = e :: todo) (ht : ∀ what, e ≠ .tell what) (hl : e ≠ .leave) (a : Lending.Action)
    (ha : (t.lending.act a).1.loans = t.lending.loans) (p : ProviderId) :
    (t.orCrash c p
      ({ t with lending := (t.lending.act a).1 }.put { c with todo })).Sound limit := by
  rcases (h.proper c hc).head he with ⟨⟨what, rfl⟩, -⟩ | ⟨rfl, -⟩ | ⟨-, hs, hf⟩
  · exact absurd rfl (ht what)
  · exact absurd rfl hl
  · exact h.orCrash hc hs p ((h.record a ha).putSame hc rfl rfl (.free hs hf))

theorem Sound.go (h : t.Sound limit) (hc : c ∈ t.calls) : (t.go c).Sound limit := by
  unfold Traffic.go
  split
  · next what todo he =>
    refine h.putSame hc rfl rfl ?_
    rcases (h.proper c hc).head he with ⟨-, hp⟩ | ⟨he, -⟩ | ⟨-, hs, hf⟩
    · exact hp
    · cases he
    · exact .free hs hf
  · next todo he =>
    rcases (h.proper c hc).head he with ⟨⟨what, he⟩, -⟩ | ⟨-, hf⟩ | ⟨he, -⟩
    · cases he
    · have hput : ((t.release c).remove c).put { c with ticket := none, todo } =
          (t.release c).put { c with ticket := none, todo } := remove_put rfl
      rw [← hput]
      exact (h.gone hc).putFree (fun d hd hk => absurd hk (mem_others.mp hd).2) rfl hf
    · exact absurd rfl he
  · next p elapsed todo he =>
    exact h.recorded hc he nofun nofun (.success p elapsed) rfl p
  · next p todo he => exact h.recorded hc he nofun nofun (.failure p) rfl p
  · next he =>
    split
    · next result hn =>
      refine h.remove hc ?_
      cases h.proper c hc with
      | free hs hf => exact hs
      | stays hx hs htold hn' hp hd => simp [hn] at hn'
      | leaves hx hs htold htodo hf => simp [he] at htodo
    · next f hn hs =>
      refine h.orCrash hc hs _ (h.ask hc hs he hn ?_)
      cases h.proper c hc with
      | free hs hf => exact hf.waits f hn
      | stays hx hs' htold hn' hp hd => simp [hs] at hs'
      | leaves hx hs' htold htodo hf => simp [hs] at hs'
    · exact h

theorem waiting?_eq_some {f : Fallback c.kind.Phase} {s : Ticket} (h : c.waiting? = some (f, s)) :
    c.todo = [] ∧ c.next = .goes f ∧ c.ticket = some s := by
  unfold Call.waiting? at h
  split at h
  · next htodo hn hs =>
    cases h
    exact ⟨htodo, hn, hs⟩
  · cases h

/-- A call that waits has a loan with its provider, with a permit once that is not what it waits
for. -/
theorem Sound.waiting (h : t.Sound limit) (hc : c ∈ t.calls) {f : Fallback c.kind.Phase}
    {s : Ticket} (hw : c.waiting? = some (f, s)) : ∃ x ∈ t.lending.loans, x.ticket = s ∧
      x.provider = f.candidate.provider ∧
      (c.kind.transport.demand f.phase ≠ .permit → x.permit.isSome) := by
  obtain ⟨htodo, hn, hs⟩ := waiting?_eq_some hw
  cases h.proper c hc with
  | free hs' hf => simp [hs] at hs'
  | @stays f' x hx hs' htold hn' hp hd =>
    obtain rfl : f = f' := by simpa [hn] using hn'
    exact ⟨x, hx, by simpa [hs] using hs'.symm, hp, hd⟩
  | leaves hx hs' htold htodo' hf => simp [htodo] at htodo'

theorem Kind.lawful (kind : Kind) : kind.transport.Lawful := by
  cases kind with
  | transfer => exact Transfer.transport_lawful
  | download => exact Download.transport_lawful

theorem Sound.take (h : t.Sound limit) (hc : c ∈ t.calls) {f : Fallback c.kind.Phase} {s : Ticket}
    (hw : c.waiting? = some (f, s)) (now : Instant) (ended : Option Error) {i : Input}
    (hi : c.kind.transport.demand f.phase = .permit → i = .permit ∨ ∃ e, i = .failure e)
    (hp : i = .permit → ∀ x ∈ t.lending.loans, x.ticket = s → x.permit.isSome) :
    (t.take c f now ended i).Sound limit := by
  obtain ⟨x, hx, rfl, hxp, hxd⟩ := h.waiting hc hw
  obtain ⟨-, -, hs⟩ := waiting?_eq_some hw
  have hleads := Fallback.step_leads (Kind.lawful c.kind) c.root now f ended hi
  unfold Traffic.take
  generalize f.step c.kind.transport c.root now ended i = step at hleads
  cases hleads with
  | stays htold hpermit hd =>
    refine h.putSame hc rfl rfl (.stays hx hs htold rfl hxp fun _ => ?_)
    by_cases hcd : c.kind.transport.demand f.phase = .permit
    · exact hp (hpermit hcd) x hx rfl
    · exact hxd hcd
  | leaves htold hfresh => exact h.putSame hc rfl rfl (.leaves hx hs htold rfl hfresh)

theorem Sound.isHeld (h : t.Sound limit) (hx : x ∈ t.lending.loans) :
    t.lending.isHeld x.ticket = x.permit.isSome := by
  simp [Lending.isHeld, h.lending.loan? hx]

theorem Sound.enter (h : t.Sound limit) (hc : c ∈ t.calls) (now : Instant) (ended : Option Error) :
    (t.enter c now ended).Sound limit := by
  unfold Traffic.enter
  split
  · next f s hw =>
    split
    · next l hd hg =>
      unfold grant? at hg
      split at hg
      · next hheld =>
        cases hg
        refine h.take hc hw now ended (fun _ => .inl rfl) fun _ x hx hxs => ?_
        rw [← h.isHeld hx, hxs]
        exact hheld
      · refine (h.resume hg).take hc hw now ended (fun _ => .inl rfl) fun _ x hx hxs => ?_
        change x ∈ l.loans at hx
        rw [Lending.resume?_loans hg] at hx
        obtain ⟨y, hy, rfl⟩ := List.mem_map.mp hx
        by_cases hys : y.ticket = s
        · rw [if_pos hys]
          rfl
        · rw [if_neg hys] at hxs
          exact absurd hxs hys
    · exact h
  · exact h

theorem Sound.meet (h : t.Sound limit) (hc : c ∈ t.calls) (i : Input) (now : Instant)
    (ended : Option Error) : (t.meet c i now ended).Sound limit := by
  unfold Traffic.meet
  split
  · next f s hw =>
    split
    · next hi =>
      refine h.take hc hw now ended (fun hd => ?_) (fun hp => ?_)
      · rw [hd] at hi
        cases i with
        | failure e => exact .inr ⟨e, rfl⟩
        | _ => cases hi
      · rw [hp] at hi
        cases c.kind.transport.demand f.phase <;> simp [Demand.takes] at hi
    · exact h
  · exact h

/-! ## Runs -/

theorem Sound.act (h : t.Sound limit) (key : Nat) (a : Act) : (t.act key a).Sound limit := by
  unfold Traffic.act
  split
  · next kind root l now ended hnone =>
    have hk : ∀ c ∈ t.calls, c.key ≠ key := by simpa [call?] using hnone
    exact h.putFree (fun c hc hck => absurd hck (hk c hc)) rfl
      (Fallback.attempt_fresh (Kind.lawful kind) now ended _ l)
  · next c hc => exact h.go (List.mem_of_find?_eq_some hc)
  · next c now ended hc => exact h.enter (List.mem_of_find?_eq_some hc) now ended
  · next c i now ended hc => exact h.meet (List.mem_of_find?_eq_some hc) i now ended
  · next c hc => exact h.gone (List.mem_of_find?_eq_some hc)
  · exact h

theorem Sound.run (h : t.Sound limit) (acts : List (Nat × Act)) : (t.run acts).Sound limit := by
  induction acts generalizing t with
  | nil => exact h
  | cons a acts ih => exact ih (h.act a.1 a.2)

/-! ## Limits -/

theorem Kind.isOpen_demand (kind : Kind) {phase : kind.Phase} (h : kind.isOpen phase = true) :
    kind.transport.demand phase ≠ .permit := by
  cases kind with
  | transfer =>
    cases phase with
    | transferring began => nofun
    | acquiring => cases h
    | storing began b others size blocks => cases h
  | download =>
    cases phase with
    | acquiring e => cases h
    | requesting e began => nofun
    | receiving body => nofun
    | placing body b => nofun

theorem Sound.permit (h : t.Sound limit) (hc : c ∈ t.calls) {p : ProviderId}
    (ho : c.isOpenWith p = true) : ∃ x ∈ t.lending.loans, c.ticket = some x.ticket ∧
      x.provider = p ∧ x.permit.isSome := by
  unfold Call.isOpenWith at ho
  split at ho
  · next f hn =>
    rw [Bool.and_eq_true, decide_eq_true_eq] at ho
    have hd := Kind.isOpen_demand c.kind ho.1
    cases h.proper c hc with
    | free hs hf => exact absurd (hf.waits f hn) hd
    | @stays f' x hx hs htold hn' hp hx' =>
      obtain rfl : f = f' := by simpa [hn] using hn'
      exact ⟨x, hx, hs, hp.trans ho.2, hx' hd⟩
    | leaves hx hs htold htodo hf => exact absurd (hf.waits f hn) hd
  · cases ho

/-- As many exchanges are in progress as there are permits, or fewer. -/
theorem Sound.countP_isOpenWith_le (h : t.Sound limit) (p : ProviderId) :
    t.calls.countP (·.isOpenWith p) ≤ Loan.permits (Loan.onProvider p t.lending.loans) := by
  have hnodup : ((t.calls.filter (·.isOpenWith p)).map (·.ticket)).Nodup := by
    refine List.Nodup.map_on (fun c hc d hd ht => ?_) ((List.Nodup.of_map _ h.keys).filter _)
    obtain ⟨hc, ho⟩ := List.mem_filter.mp hc
    obtain ⟨x, -, hs, -⟩ := h.permit hc ho
    exact h.eq_of_ticket hc (List.mem_filter.mp hd).1 hs (ht ▸ hs)
  have hsub : (t.calls.filter (·.isOpenWith p)).map (·.ticket) ⊆
      ((Loan.onProvider p t.lending.loans).filter (·.permit.isSome)).map (some ·.ticket) := by
    intro s hm
    obtain ⟨c, hc, rfl⟩ := List.mem_map.mp hm
    obtain ⟨hc, ho⟩ := List.mem_filter.mp hc
    obtain ⟨x, hx, hs, hp, hpermit⟩ := h.permit hc ho
    have hxp : x ∈ Loan.onProvider p t.lending.loans := List.mem_filter.mpr ⟨hx, by simp [hp]⟩
    exact List.mem_map.mpr ⟨x, List.mem_filter.mpr ⟨hxp, hpermit⟩, hs.symm⟩
  have := (List.subperm_of_subset hnodup hsub).length_le
  rwa [List.length_map, List.length_map, ← List.countP_eq_length_filter,
    ← List.countP_eq_length_filter] at this

theorem permits_le {n : Nat} {l : List Loan} {a : Account} (h : a.Balanced n l) (hn : n ≠ 0) :
    Loan.permits l ≤ n := by
  have hs := h.slots
  cases ha : a.slots with
  | none =>
    rw [ha] at hs
    exact absurd hs.1 hn
  | some s =>
    rw [ha] at hs
    have := hs.2.total
    omega

/-! ## Waiting -/

/-- Whether a call waits for a permit that is not there. -/
def Blocked (t : Traffic) (c : Call) : Prop :=
  ∃ f s, c.waiting? = some (f, s) ∧ c.kind.transport.demand f.phase = .permit ∧ t.grant? s = none

theorem Sound.grant?_of_held (h : t.Sound limit) (hx : x ∈ t.lending.loans)
    (hs : x.permit.isSome) : t.grant? x.ticket ≠ none := by
  rw [grant?, h.isHeld hx, if_pos hs]
  nofun

theorem Sound.grant?_of_handed (h : t.Sound limit) (hx : x ∈ t.lending.loans) {s : Slots}
    (hs : (t.lending.session.account x.provider).slots = some s) (hh : x.ticket ∈ s.handed) :
    t.grant? x.ticket ≠ none := by
  unfold grant?
  split
  · nofun
  · next hn =>
    rw [h.isHeld hx] at hn
    obtain ⟨e, he, -⟩ := h.lending.entry hx
    rw [Lending.resume?_eq (h.lending.loan? hx) he, if_neg hn]
    simp [Account.resume?, hs, Slots.resume?, hh]

/-- Where somebody waits for a slot, the permit of somebody is there. -/
theorem Sound.exists_granted (h : t.Sound limit) (hx : x ∈ t.lending.loans) (hn : x.permit = none) :
    ∃ y ∈ t.lending.loans, y.provider = x.provider ∧ t.grant? y.ticket ≠ none := by
  have hw : x.ticket ∈ Loan.waiters (Loan.onProvider x.provider t.lending.loans) := by
    refine List.mem_map.mpr ⟨x, List.mem_filter.mpr ⟨?_, by simp [hn]⟩, rfl⟩
    exact List.mem_filter.mpr ⟨hx, by simp⟩
  have hb : Account.Covers _ (Loan.onProvider x.provider t.lending.loans)
      (t.lending.session.account x.provider).slots := (h.lending.kept.balanced x.provider).slots
  cases hs : (t.lending.session.account x.provider).slots with
  | none =>
    rw [hs] at hb
    rw [hb.2] at hw
    cases hw
  | some s =>
    rw [hs] at hb
    obtain ⟨hlimit, hlends⟩ := hb
    rcases Nat.eq_zero_or_pos (Loan.permits (Loan.onProvider x.provider t.lending.loans))
      with hz | hz
    · -- nobody has a permit, so somebody in line was handed a slot
      rw [hz] at hlends
      obtain ⟨s', hm, hh⟩ := hlends.exists_handed hlimit (List.ne_nil_of_mem hw)
      obtain ⟨y, hy, rfl⟩ := List.mem_map.mp hm
      obtain ⟨hy, hyp⟩ := List.mem_filter.mp (List.mem_filter.mp hy).1
      have hyp : y.provider = x.provider := of_decide_eq_true hyp
      exact ⟨y, hy, hyp, h.grant?_of_handed hy (hyp ▸ hs) hh⟩
    · obtain ⟨y, hy, hys⟩ := List.countP_pos_iff.mp hz
      obtain ⟨hy, hyp⟩ := List.mem_filter.mp hy
      exact ⟨y, hy, of_decide_eq_true hyp, h.grant?_of_held hy hys⟩

/-- Where somebody is blocked, somebody who shares the provider is not. -/
theorem Sound.progress (h : t.Sound limit) (hc : c ∈ t.calls) (hb : t.Blocked c) :
    ∃ d ∈ t.calls, ¬ t.Blocked d ∧ ∃ x ∈ t.lending.loans, ∃ y ∈ t.lending.loans,
      c.ticket = some x.ticket ∧ d.ticket = some y.ticket ∧ y.provider = x.provider := by
  obtain ⟨f, s, hw, -, hg⟩ := hb
  obtain ⟨x, hx, rfl, -⟩ := h.waiting hc hw
  have hnone : x.permit = none := by
    by_contra hs
    exact h.grant?_of_held hx (Option.isSome_iff_ne_none.mpr hs) hg
  obtain ⟨y, hy, hyp, hyg⟩ := h.exists_granted hx hnone
  obtain ⟨d, hd, hs⟩ := h.call y hy
  refine ⟨d, hd, ?_, x, hx, y, hy, (waiting?_eq_some hw).2.2, hs, hyp⟩
  rintro ⟨f', s', hw', -, hg'⟩
  have := (waiting?_eq_some hw').2.2
  rw [hs] at this
  cases this
  exact hyg hg'

/-- No provider with a limit ever has more exchanges in progress than that. Each runs on a permit
of its call, no call has or awaits more than one permit, and one that is gone has none. Of those
that share a provider not all are blocked. -/
theorem run_limited (policy : Policy) (capacity : Option Nat) (acts : List (Nat × Act)) :
    let t := (opened policy capacity).run acts
    (∀ p, (policy.configOf p).limit ≠ 0 →
      t.calls.countP (·.isOpenWith p) ≤ (policy.configOf p).limit.toNat) ∧
    (∀ c ∈ t.calls, ∀ p, c.isOpenWith p = true → ∃ x ∈ t.lending.loans,
      t.issued[x.ticket]? = some c.key ∧ x.provider = p ∧ x.permit.isSome) ∧
    (t.lending.loans.map (·.ticket)).Nodup ∧
    (∀ x ∈ t.lending.loans, ∀ y ∈ t.lending.loans, t.issued[x.ticket]? = t.issued[y.ticket]? →
      x = y) ∧
    (∀ x ∈ t.lending.loans, ∃ c ∈ t.calls, t.issued[x.ticket]? = some c.key) ∧
    ∀ c ∈ t.calls, t.Blocked c → ∃ d ∈ t.calls, ¬ t.Blocked d ∧
      ∃ x ∈ t.lending.loans, ∃ y ∈ t.lending.loans, t.issued[x.ticket]? = some c.key ∧
        t.issued[y.ticket]? = some d.key ∧ y.provider = x.provider := by
  intro t
  have h : t.Sound fun p => (policy.configOf p).limit.toNat :=
    (sound_opened policy capacity).run acts
  refine ⟨fun p hn => ?_, fun c hc p ho => ?_, h.lending.kept.tickets, fun x hx y hy he => ?_,
    fun x hx => ?_, fun c hc hb => ?_⟩
  · have hb := h.lending.kept.balanced p
    rw [h.limits] at hb
    have hn : (policy.configOf p).limit.toNat ≠ 0 := fun hz => hn (UInt64.toNat_inj.mp hz)
    exact Nat.le_trans (h.countP_isOpenWith_le p) (permits_le hb hn)
  · obtain ⟨x, hx, hs, hp, hpermit⟩ := h.permit hc ho
    exact ⟨x, hx, h.issued c hc _ hs, hp, hpermit⟩
  · obtain ⟨c, hc, hcx⟩ := h.call x hx
    obtain ⟨d, hd, hdy⟩ := h.call y hy
    rw [h.issued c hc _ hcx, h.issued d hd _ hdy] at he
    rw [h.eq_of_key hc hd (Option.some.inj he), hdy] at hcx
    exact h.lending.unique hx hy (Option.some.inj hcx).symm
  · obtain ⟨c, hc, hs⟩ := h.call x hx
    exact ⟨c, hc, h.issued c hc _ hs⟩
  · obtain ⟨d, hd, hdb, x, hx, y, hy, hcs, hds, hp⟩ := h.progress hc hb
    exact ⟨d, hd, hdb, x, hx, y, hy, h.issued c hc _ hcs, h.issued d hd _ hds, hp⟩

/-- The second of two transfers from a provider with one slot begins when the first is dropped. -/
example :
    let p : ProviderId := ⟨[0]⟩
    let c : Candidate := { root := ⟨[1]⟩, provider := p, protocols := [.graphsync] }
    let begins (key : Nat) : List (Nat × Act) :=
      [(key, .begin .transfer ⟨[1]⟩ [c] 0 none), (key, .go), (key, .go)]
    let t := (opened { default := { limit := 1 } } none).run
      (begins 0 ++ begins 1 ++ [(0, .enter 1 none), (1, .enter 2 none)])
    let u := t.run [(0, .drop), (1, .enter 3 none)]
    t.calls.map (fun c => (c.key, c.isOpenWith p)) = [(1, false), (0, true)] ∧
      u.calls.map (fun c => (c.key, c.isOpenWith p)) = [(1, true)] := by
  decide

end Traffic

end Courier
