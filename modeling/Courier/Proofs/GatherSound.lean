import Courier.Proofs.ListLemmas
import Courier.Proofs.QuestLemmas

/-!
# What a walk has gathered

What a walk has seen is what it wrote, what it fetches and the links of the
block being written, each once (`Gathers`). A fetch that goes on, a block that
is delivered and one that was written keep it so.
-/

namespace Courier.Exchange.Quest

variable {q : Quest} {w w' : Walk} {k : Key} {es es' : List Effect} {f f' : Fetch} {b : Block}
  {c : Cid} {p : ProviderId} {l : List (Key × Walk)}

/-! ## What was written follows the links -/

/-- What a walk asked for and wrote, whether it came to an end or not. -/
structure Follows (q : Quest) (es : List Effect) : Prop where
  once : ((writes es).map (·.cid)).Nodup
  delivered : ∀ b ∈ writes es, q.Reaches b.cid ∧ ∃ p, q.delivery? b.cid = some (b, p)
  linked : ∀ l₁ b l₂, writes es = l₁ ++ b :: l₂ → b.cid = q.root ∨ ∃ a ∈ l₁, b.cid ∈ a.links
  reached : ∀ c, asked c es ≠ [] → q.Reaches c
  inTurn : ∀ c, asked c es <+: q.turns c

theorem Follows.congr (h : q.Follows es) (hw : writes es' = writes es)
    (ha : ∀ c, asked c es' = asked c es) : q.Follows es' := by
  obtain ⟨once, delivered, linked, reached, inTurn⟩ := h
  rw [← hw] at once delivered linked
  refine ⟨once, delivered, linked, fun c hc => reached c ?_, fun c => ?_⟩
  · rw [← ha]; exact hc
  · rw [ha]; exact inTurn c

/-! ## New links -/

theorem mem_unseen {seen links : List Cid} : c ∈ Walk.unseen seen links ↔ c ∈ links ∧ c ∉ seen := by
  induction links generalizing seen with
  | nil => simp [Walk.unseen]
  | cons d links ih =>
    unfold Walk.unseen
    by_cases hd : d ∈ seen
    · rw [if_pos hd, ih, List.mem_cons]
      constructor
      · exact fun h => ⟨.inr h.1, h.2⟩
      · rintro ⟨rfl | h, hn⟩
        · exact absurd hd hn
        · exact ⟨h, hn⟩
    · rw [if_neg hd, List.mem_cons, ih]
      by_cases hc : c = d
      · subst hc; simp [hd]
      · simp [hc]

theorem nodup_unseen (seen links : List Cid) : (Walk.unseen seen links).Nodup := by
  induction links generalizing seen with
  | nil => exact List.nodup_nil
  | cons d links ih =>
    unfold Walk.unseen
    by_cases hd : d ∈ seen
    · rw [if_pos hd]; exact ih seen
    · rw [if_neg hd, List.nodup_cons]
      refine ⟨fun hm => ?_, ih _⟩
      exact (mem_unseen.1 hm).2 List.mem_cons_self

/-! ## A walk under way -/

/-- What tells the result of a walk from what it wrote. -/
def tallyOf (q : Quest) (l : List Block) : Tally where
  provider := (l.head?.bind fun b => q.delivery? b.cid).map (·.2)
  size := totalSize l
  blocks := l.length

theorem tallyOf_append {l : List Block} (hb : q.delivery? b.cid = some (b, p))
    (hl : ∀ a ∈ l, ∃ r, q.delivery? a.cid = some (a, r)) :
    q.tallyOf (l ++ [b]) = {
      provider := (q.tallyOf l).provider.or (some p)
      size := (q.tallyOf l).size + b.data.length
      blocks := (q.tallyOf l).blocks + 1 } := by
  have hs : totalSize (l ++ [b]) = totalSize l + b.data.length := totalSize_append l [b]
  cases l with
  | nil => simp [tallyOf, hb, totalSize]
  | cons a l =>
    obtain ⟨r, hr⟩ := hl a List.mem_cons_self
    simp only [List.cons_append] at hs
    simp [tallyOf, hr, hs]

theorem tallyOf_provider {l : List Block} (hl : ∀ l₁ b l₂, l = l₁ ++ b :: l₂ →
    b.cid = q.root ∨ ∃ a ∈ l₁, b.cid ∈ a.links) (hne : l ≠ []) :
    (q.tallyOf l).provider = (q.delivery? q.root).map (·.2) := by
  cases l with
  | nil => exact absurd rfl hne
  | cons a r =>
    have ha := (hl [] a r rfl).resolve_right (by simp)
    simp [tallyOf, ha]

/-- A walk that is under way, after some effects. -/
structure Gathers (q : Quest) (w : Walk) (es : List Effect) : Prop where
  providers : w.providers = q.providers
  distinct : w.seen.Nodup
  parts : ((writes es).map (·.cid) ++ (w.fetches.map (·.cid) ++ w.writing.getD [])).Perm w.seen
  root : q.root ∈ w.seen
  reached : ∀ c ∈ w.seen, q.Reaches c
  origin : ∀ c ∈ w.seen, c = q.root ∨ ∃ b ∈ writes es, c ∈ b.links
  linked : ∀ l₁ b l₂, writes es = l₁ ++ b :: l₂ → b.cid = q.root ∨ ∃ a ∈ l₁, b.cid ∈ a.links
  closed : ∀ b ∈ writes es, ∀ c ∈ b.links, c ∈ w.seen
  served : ∀ b ∈ writes es, asked b.cid es = q.turns b.cid ∧ ∃ p, q.delivery? b.cid = some (b, p)
  standing : ∀ f ∈ w.fetches, q.Standing f es
  quiet : ∀ c, c ∉ (writes es).map (·.cid) → c ∉ w.fetches.map (·.cid) → asked c es = []
  tally : w.tally = q.tallyOf (writes es)

namespace Gathers

theorem nodup (h : q.Gathers w es) :
    ((writes es).map (·.cid) ++ (w.fetches.map (·.cid) ++ w.writing.getD [])).Nodup :=
  h.parts.nodup_iff.2 h.distinct

theorem seen_of_written (h : q.Gathers w es) (hb : b ∈ writes es) : b.cid ∈ w.seen :=
  h.parts.subset (List.mem_append_left _ (List.mem_map_of_mem hb))

theorem seen_of_fetch (h : q.Gathers w es) (hf : f ∈ w.fetches) : f.cid ∈ w.seen :=
  h.parts.subset (List.mem_append_right _ (List.mem_append_left _ (List.mem_map_of_mem hf)))

theorem asked_of_seen (h : q.Gathers w es) (c : Cid) :
    asked c es = [] ∨ c ∈ w.seen ∧ asked c es <+: q.turns c := by
  by_cases hw : c ∈ (writes es).map (·.cid)
  · obtain ⟨b, hb, rfl⟩ := List.mem_map.1 hw
    refine .inr ⟨h.seen_of_written hb, [], ?_⟩
    rw [List.append_nil, (h.served b hb).1]
  by_cases hf : c ∈ w.fetches.map (·.cid)
  · obtain ⟨f, hf', rfl⟩ := List.mem_map.1 hf
    exact .inr ⟨h.seen_of_fetch hf', (h.standing f hf').in_turn⟩
  · exact .inl (h.quiet c hw hf)

theorem follows (h : q.Gathers w es) : q.Follows es := by
  refine ⟨(List.nodup_append.1 h.nodup).1, ?_, h.linked, ?_, ?_⟩
  · exact fun b hb => ⟨h.reached _ (h.seen_of_written hb), (h.served b hb).2⟩
  · exact fun c hc => h.reached c ((h.asked_of_seen c).resolve_left hc).1
  · intro c
    rcases h.asked_of_seen c with hc | hc
    · rw [hc]
      exact ⟨_, rfl⟩
    · exact hc.2

/-- A fetch has a block to itself. -/
theorem ne_of_written (h : q.Gathers w es) (hf : f ∈ w.fetches) (hb : b ∈ writes es) :
    b.cid ≠ f.cid :=
  (List.nodup_append.1 h.nodup).2.2 _ (List.mem_map_of_mem hb) _
    (List.mem_append_left _ (List.mem_map_of_mem hf))

theorem cids (h : q.Gathers w es) : (w.fetches.map (·.cid)).Nodup :=
  (List.nodup_append.1 (List.nodup_append.1 h.nodup).2.1).1

theorem goes (h : q.Gathers w es) (ht : (w.fetches.map (·.ticket)).Nodup) (hf : f ∈ w.fetches)
    {own own' shared shared' : Slots} {a : Action}
    (hg : f.Goes w.providers own shared a f' own' shared')
    (hn : ∀ p others, f.phase = .asking p others → q.block? p f.cid = none) :
    q.Gathers ({ w with own := own' }.setFetch f') (es ++ f'.asks) := by
  rw [h.providers] at hg
  have hw := Walk.fetches_perm ht hf
  have hw' := Walk.setFetch_perm (w := { w with own := own' }) ht hf hg.ticket
  have hc : ((Walk.setFetch { w with own := own' } f').fetches.map (·.cid)).Perm
      (w.fetches.map (·.cid)) := by
    have hc' := hw'.map Fetch.cid
    rw [List.map_cons, hg.cid] at hc'
    exact hc'.trans (hw.map Fetch.cid).symm
  have hwr : writes (es ++ f'.asks) = writes es := by simp
  have same {c : Cid} (hne : c ≠ f.cid) : asked c (es ++ f'.asks) = asked c es := by
    rw [asked_append, asked_asks_of_ne (by rw [hg.cid]; exact hne), List.append_nil]
  refine ⟨h.providers, h.distinct, ?_, h.root, h.reached, ?_, ?_, ?_, ?_, ?_, ?_, ?_⟩
  · rw [hwr]
    exact ((hc.append_right _).append_left _).trans h.parts
  · rw [hwr]; exact h.origin
  · rw [hwr]; exact h.linked
  · rw [hwr]; exact h.closed
  · rw [hwr]
    intro b hb
    rw [same (h.ne_of_written hf hb)]
    exact h.served b hb
  · intro g hg'
    rcases List.mem_cons.1 (hw'.subset hg') with rfl | hg'
    · exact (h.standing f hf).goes hg hn
    · obtain ⟨hgw, hne⟩ := List.mem_filter.1 hg'
      refine (h.standing g hgw).congr (same fun he => ?_)
      have hgf := List.inj_on_of_nodup_map h.cids hgw hf he
      simp [hgf] at hne
  · rw [hwr]
    intro c hcw hcf
    have hcf : c ∉ w.fetches.map (·.cid) := fun hm => hcf (hc.symm.subset hm)
    have hne : c ≠ f.cid := fun he => hcf (by rw [he]; exact List.mem_map_of_mem hf)
    rw [same hne]
    exact h.quiet c hcw hcf
  · rw [hwr]; exact h.tally

theorem spawns (h : q.Gathers w es) {links : List Cid} (hw : w.writing = some links) (t : Ticket)
    (hes : ∀ e ∈ es', e.isNote = true) :
    q.Gathers ({ w with writing := none }.spawn t links) (es ++ es') := by
  obtain ⟨hnw, -, hna⟩ := silent_of_notes hes
  have hwr : writes (es ++ es') = writes es := by simp [hnw]
  have has (c : Cid) : asked c (es ++ es') = asked c es := by simp [hna]
  have hc : (Walk.spawn { w with writing := none } t links).fetches.map (·.cid) =
      w.fetches.map (·.cid) ++ links := by
    have hl : (spawned t links).map (·.cid) = links := by
      apply List.ext_getElem
      · simp [spawned]
      · intro i hi hi'
        simp [spawned]
    exact (List.map_append).trans (congrArg _ hl)
  have hp := h.parts
  have hd := h.nodup
  rw [hw] at hp hd
  refine ⟨h.providers, h.distinct, ?_, h.root, h.reached, ?_, ?_, ?_, ?_, ?_, ?_, ?_⟩
  · rw [hwr, hc]
    simpa [Walk.spawn] using hp
  · rw [hwr]; exact h.origin
  · rw [hwr]; exact h.linked
  · rw [hwr]; exact h.closed
  · intro b hb
    rw [has]
    exact h.served b (hwr ▸ hb)
  · intro g hg
    rcases List.mem_append.1 hg with hg | hg
    · exact (h.standing g hg).congr (has _)
    · -- what is linked to for the first time was neither asked for nor written before
      have hg' : g.cid ∈ links := by
        obtain ⟨i, hi, rfl⟩ := List.mem_mapIdx.1 hg
        exact List.getElem_mem hi
      have hfresh : g.phase = .fresh := (mem_spawned hg).1
      unfold Standing
      rw [hfresh, has]
      refine h.quiet _ (fun hm => ?_) (fun hm => ?_)
      · exact (List.nodup_append.1 hd).2.2 _ hm _ (List.mem_append_right _ hg') rfl
      · exact (List.nodup_append.1 (List.nodup_append.1 hd).2.1).2.2 _ hm _ hg' rfl
  · intro c hcw hcf
    rw [has]
    rw [hc] at hcf
    exact h.quiet c (hwr ▸ hcw) fun hm => hcf (List.mem_append_left _ hm)
  · rw [hwr]; exact h.tally

theorem delivers (h : q.Gathers w es) (ht : (w.fetches.map (·.ticket)).Nodup)
    (hw : w.writing = none) (hf : f ∈ w.fetches) {others : List ProviderId}
    (hp : f.phase = .asking p others) (hb : q.block? p f.cid = some b) (own : Slots) (k : Key)
    (hes : ∀ e ∈ es', e.isNote = true) :
    q.Gathers ((Walk.dropFetch { w with own } f.ticket).take b p)
      (es ++ (es' ++ [.write k b])) := by
  obtain ⟨hnw, -, hna⟩ := silent_of_notes hes
  have hwr : writes (es ++ (es' ++ [.write k b])) = writes es ++ [b] := by simp [hnw]
  have has (c : Cid) : asked c (es ++ (es' ++ [.write k b])) = asked c es := by
    simp [hna]
  have hst := h.standing f hf
  unfold Standing at hst
  rw [hp] at hst
  obtain ⟨pre, hsplit, hasked, hpre⟩ := hst
  have hcid : b.cid = f.cid := cid_of_block? hb
  have hdel : q.delivery? b.cid = some (b, p) := by
    rw [hcid]
    exact delivery?_of_split hsplit hpre hb
  have hfw := (Walk.fetches_perm ht hf).map Fetch.cid
  have hparts := h.parts
  rw [hw] at hparts
  have hseen : b.cid ∈ w.seen := by
    rw [hcid]
    exact h.seen_of_fetch hf
  refine ⟨h.providers, ?_, ?_, List.mem_append_right _ h.root, ?_, ?_, ?_, ?_, ?_, ?_, ?_, ?_⟩
  · refine List.nodup_append.2 ⟨List.nodup_reverse.2 (nodup_unseen _ _), h.distinct, ?_⟩
    intro c hc c' hc' he
    exact (mem_unseen.1 (List.mem_reverse.1 hc)).2 (he ▸ hc')
  · have hold : ((writes es).map (·.cid) ++ [b.cid] ++
        (w.fetches.filter (·.ticket ≠ f.ticket)).map (·.cid)).Perm w.seen := by
      rw [hcid, List.append_assoc]
      refine List.Perm.trans (hfw.symm.append_left _) ?_
      simpa using hparts
    rw [hwr, List.map_append, ← List.append_assoc]
    refine (hold.append_right _).trans ?_
    exact List.perm_append_comm.trans ((List.reverse_perm _).symm.append_right _)
  · intro c hc
    rcases List.mem_append.1 hc with hc | hc
    · exact .link (h.reached _ hseen) hdel (mem_unseen.1 (List.mem_reverse.1 hc)).1
    · exact h.reached c hc
  · rw [hwr]
    intro c hc
    rcases List.mem_append.1 hc with hc | hc
    · exact .inr ⟨b, List.mem_append_right _ List.mem_cons_self,
        (mem_unseen.1 (List.mem_reverse.1 hc)).1⟩
    · exact (h.origin c hc).imp_right fun ⟨a, ha, hl⟩ => ⟨a, List.mem_append_left _ ha, hl⟩
  · rw [hwr]
    intro l₁ a l₂ he
    rcases snoc_eq_append_cons he with ⟨rfl, rfl, -⟩ | ⟨l, he, -⟩
    · exact h.origin _ hseen
    · exact h.linked l₁ a l he
  · rw [hwr]
    intro a ha c hc
    by_cases hcs : c ∈ w.seen
    · exact List.mem_append_right _ hcs
    · rcases List.mem_append.1 ha with ha | ha
      · exact absurd (h.closed a ha c hc) hcs
      · rw [List.mem_singleton.1 ha] at hc
        exact List.mem_append_left _ (List.mem_reverse.2 (mem_unseen.2 ⟨hc, hcs⟩))
  · rw [hwr]
    intro a ha
    rw [has]
    rcases List.mem_append.1 ha with ha | ha
    · exact h.served a ha
    · rw [List.mem_singleton.1 ha]
      refine ⟨?_, p, hdel⟩
      rw [hcid, hasked, turns_of_split hsplit hpre hb]
  · exact fun g hg => (h.standing g (List.filter_sublist.subset hg)).congr (has _)
  · rw [hwr]
    intro c hcw hcf
    rw [has]
    rw [List.map_append, List.mem_append, not_or] at hcw
    refine h.quiet c hcw.1 fun hm => ?_
    rcases List.mem_cons.1 (hfw.subset hm) with rfl | hm
    · exact hcw.2 (by simp [hcid])
    · exact hcf hm
  · rw [hwr, tallyOf_append hdel fun a ha => (h.served a ha).2, ← h.tally]
    rfl

/-- What is reached by links of blocks that were all written was written too. -/
theorem reaches_seen (h : q.Gathers w es) (hw : ∀ c ∈ w.seen, c ∈ (writes es).map (·.cid))
    (hc : q.Reaches c) : c ∈ w.seen := by
  induction hc with
  | root => exact h.root
  | link hr hd hl ih =>
    obtain ⟨a, ha, rfl⟩ := List.mem_map.1 (hw _ ih)
    obtain ⟨-, r, hr⟩ := h.served a ha
    rw [hr] at hd
    cases hd
    exact h.closed _ ha _ hl

theorem starts (q : Quest) (own : Slots) (t : Ticket) (hes : ∀ e ∈ es, e.isNote = true) :
    q.Gathers (Walk.spawn { root := q.root, providers := q.providers, own, seen := [q.root] } t
      [q.root]) es := by
  obtain ⟨hnw, -, hna⟩ := silent_of_notes hes
  have hroot : ∀ c ∈ [q.root], c = q.root := fun c hc => List.mem_singleton.1 hc
  refine ⟨rfl, List.nodup_singleton _, ?_, List.mem_singleton_self _, ?_, ?_, ?_, ?_, ?_, ?_, ?_,
    ?_⟩
  · simp [hnw, Walk.spawn]
  · exact fun c hc => hroot c hc ▸ .root
  · exact fun c hc => .inl (hroot c hc)
  · rw [hnw]
    intro l₁ b l₂ he
    simp at he
  · rw [hnw]
    exact fun b hb => absurd hb List.not_mem_nil
  · rw [hnw]
    exact fun b hb => absurd hb List.not_mem_nil
  · intro f hf
    have hfresh : f.phase = .fresh := (mem_spawned hf).1
    unfold Standing
    rw [hfresh]
    exact hna _
  · exact fun c _ _ => hna c
  · rw [hnw]; rfl

end Gathers

end Courier.Exchange.Quest
