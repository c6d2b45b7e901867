import Courier.Network.Basic
import Courier.Proofs.ErrandSound
import Courier.Proofs.TraversalSound
import Courier.Proofs.VerifySound
import Courier.Proofs.WalkSound

/-!
# The transports agree

A provider has a store, and what can be reached from a root in it is stored or
not. If it is, a walk that asks for one block after the other, a transfer and,
where all blocks can be put into an archive, a download of that archive end with
the same blocks and tell the same of them. Otherwise the first two fail
(`transports_agree`).
-/

namespace Courier

/-! ## Sinks -/

theorem Store.extend_blocks {s : Store} {l : List Block} (hl : (l.map (·.cid)).Nodup)
    (hs : ∀ b ∈ l, s.get? b.cid = none) : (s.extend l).blocks = s.blocks ++ l := by
  induction l generalizing s with
  | nil => exact (List.append_nil _).symm
  | cons b l ih =>
    obtain ⟨hb, hl⟩ := List.nodup_cons.mp hl
    obtain ⟨hnew, hs⟩ := List.forall_mem_cons.mp hs
    have hinsert : s.insert b = { blocks := s.blocks ++ [b], size := s.size + b.data.length, puts := s.puts + 1 } :=
      if_neg (by simp [Store.contains, hnew])
    have hrest : ∀ a ∈ l, (s.insert b).get? a.cid = none := by
      intro a ha
      have hne : b.cid ≠ a.cid := fun he => hb (List.mem_map.mpr ⟨a, ha, he.symm⟩)
      have hold := hs a ha
      unfold Store.get? at hold ⊢
      rw [hinsert, List.find?_append, hold]
      simp [hne]
    have hextend : s.extend (b :: l) = (s.insert b).extend l := rfl
    rw [hextend, ih hl hrest, hinsert, List.append_assoc]
    rfl

/-- A retrieval brought these blocks, each once, to its sink and tells of them. -/
structure Stats.Brings (st : Stats) (written : List Block) (root : Cid) (p : ProviderId) (bs : List Block) :
    Prop where
  same : written.Perm bs
  held : (({} : Store).extend written).blocks.Perm bs
  told : st.Tells root p (totalSize bs) bs.length

theorem Stats.Tells.brings {st : Stats} {written bs : List Block} {root : Cid} {p : ProviderId}
    (h : st.Tells root p (totalSize bs) bs.length) (hbs : (bs.map (·.cid)).Nodup) (hw : written.Perm bs) :
    st.Brings written root p bs where
  same := hw
  held := by
    rw [Store.extend_blocks ((hw.map _).nodup_iff.mpr hbs) (fun _ _ => rfl)]
    exact hw
  told := h

variable {n : Network} {name : String} {p : ProviderId} {s : Store} {root c : Cid}

/-! ## One provider -/

theorem Network.request_eq_ok_iff (hs : n.reach name p = .ok s) {b : Block} :
    n.request name p c = .ok b ↔ s.get? c = some b := by
  simp only [request, hs, bind, Except.bind]
  cases s.get? c with
  | none => exact ⟨nofun, nofun⟩
  | some a => exact ⟨fun h => congrArg some (Except.ok.inj h), fun h => congrArg Except.ok (Option.some.inj h)⟩

namespace Exchange.Quest

/-- A walk that asks one provider. -/
def single (n : Network) (name : String) (p : ProviderId) (root : Cid) : Quest := ⟨root, [p], n.request name⟩

theorem delivery?_single (hs : n.reach name p = .ok s) (c : Cid) :
    (single n name p root).delivery? c = (s.get? c).map (·, p) := by
  have hblock : (single n name p root).block? p c = s.get? c := by
    cases hg : s.get? c with
    | none =>
      refine block?_eq_none fun b hb => ?_
      rw [(Network.request_eq_ok_iff hs).mp hb] at hg
      cases hg
    | some b =>
      have hhost : (single n name p root).host p c = .ok b := (Network.request_eq_ok_iff hs).mpr hg
      simp only [block?, hhost, (Store.mem_of_get? hg).2, if_true]
  change [p].findSome? _ = _
  rw [List.findSome?_singleton, hblock]

theorem reaches_single (hs : n.reach name p = .ok s) :
    (single n name p root).Reaches c ↔ s.Reaches root c := by
  constructor
  · intro h
    induction h with
    | root => exact .root
    | link _ hd hl ih =>
      rw [delivery?_single hs] at hd
      obtain ⟨b, hb, he⟩ := Option.map_eq_some_iff.mp hd
      cases he
      exact .link ih hb hl
  · intro h
    induction h with
    | root => exact .root
    | link _ hb hl ih => exact .link ih (by rw [delivery?_single hs, hb]; rfl) hl

theorem finite_single (hs : n.reach name p = .ok s) : {c | (single n name p root).Reaches c}.Finite := by
  refine (List.finite_toSet (root :: s.blocks.flatMap (·.links))).subset ?_
  intro c hc
  cases (reaches_single hs).mp hc with
  | root => exact List.mem_cons_self
  | link _ hb hl =>
    exact List.mem_cons_of_mem _ (List.mem_flatMap.mpr ⟨_, (Store.mem_of_get? hb).1, hl⟩)

/-- A walk takes no more than so many steps, and when it can take none it has its one result. -/
theorem exists_ends (q : Quest) (hq : {c | q.Reaches c}.Finite) {c : Config} {x : Exchange}
    (hx : ofConfig? c = some x) (hadm : x.admits = true) :
    ∃ m, ∀ as, q.Fitting (x.step (.start q.root q.providers)).1 as → as.length ≤ m ∧
      ((∀ a, ¬ q.Fits (x.run (.start q.root q.providers :: as)).1 a) →
        ∃ r, results (x.run (.start q.root q.providers :: as)).2 = [r] ∧
          q.Ends (x.run (.start q.root q.providers :: as)).2 r ∧
          q.Follows (x.run (.start q.root q.providers :: as)).2) := by
  have hsound := sound_ofConfig hx
  have hstep : x.step (.start q.root q.providers) = (x.start q.root q.providers).2 := if_pos hadm
  have hwalks : x.walks = [] := by rw [ofConfig?_eq hx]
  have hstart : q.At (x.step (.start q.root q.providers)).1.walks (x.step (.start q.root q.providers)).2 := by
    rw [hstep]
    simp only [start, hwalks, List.nil_append]
    exact .walking (.starts q _ _ (by simp [Effect.isNote])) rfl
  refine ⟨totalLoad {c | q.Reaches c}.ncard q.providers.length
    (x.step (.start q.root q.providers)).1.walks, fun as has => ?_⟩
  obtain ⟨hat, hle⟩ := hstart.run (hsound.step _) hq has
  refine ⟨hle, fun hstuck => ?_⟩
  obtain ⟨hs, hw⟩ := hsound.run (.start q.root q.providers :: as)
  have hwidth : (x.run (.start q.root q.providers :: as)).1.width ≠ 0 := by
    rw [hw, ofConfig?_eq hx]
    exact Nat.ne_of_gt (Nat.le_max_left 1 _)
  have hover : (x.run (.start q.root q.providers :: as)).1.walks = [] := by
    -- a walk that is left could go on
    by_contra hne
    obtain ⟨a, ha⟩ := q.exists_fits hs (Nat.ne_of_gt (Nat.le_max_left 1 _)) hwidth hne
    exact hstuck a ha
  have hz : q.At (x.run (.start q.root q.providers :: as)).1.walks (x.run (.start q.root q.providers :: as)).2 :=
    hat
  rw [hover] at hz
  cases hz with
  | done hf hr he => exact ⟨_, hr, he, hf⟩

/-- The result of a walk that asks one provider, told from what that would transfer. -/
theorem ends_single (hs : n.reach name p = .ok s) {es : List Effect} {r : Except Error Tally}
    (he : (single n name p root).Ends es r) (hf : (single n name p root).Follows es) :
    ((∃ t, r = .ok t) ↔ s.Whole root) ∧
      ∀ t bs, r = .ok t → n.transfer name p root = .ok bs →
        ∀ d, (t.stats root d).Brings (writes es) root p bs := by
  constructor
  · obtain ⟨found, hnd, hfound⟩ := exists_found (single n name p root) (finite_single hs)
    refine (he.found hf hnd hfound).1.trans (forall_congr' fun c => ?_)
    rw [reaches_single hs, delivery?_single hs, Option.isSome_map]
  · intro t bs ht hbs d
    obtain ⟨hcovers, hwhole⟩ := Traversal.fromRoot_covers ((Network.transfer_eq_ok_iff hs).mp hbs)
    have hmem (b : Block) : b ∈ bs ↔ (single n name p root).Reaches b.cid ∧
        ∃ r, (single n name p root).delivery? b.cid = some (b, r) := by
      rw [hcovers.mem, reaches_single hs, delivery?_single hs]
      simp
    obtain ⟨hperm, -, rfl⟩ := (he.found hf hcovers.once hmem).2 t ht
    have hcount : bs.length = {c | (single n name p root).Reaches c}.ncard :=
      length_found hcovers.once fun c => (reaches_single hs).trans (hcovers.mem_cids hwhole).symm
    have hserved : ((single n name p root).delivery? root).map (·.2) = some p := by
      obtain ⟨b, hb⟩ := Option.isSome_iff_exists.mp (hwhole root .root)
      rw [delivery?_single hs, hb]
      rfl
    exact Stats.Tells.brings ⟨rfl, hserved, rfl, hcount.symm⟩ hcovers.once hperm

end Exchange.Quest

/-! ## Agreement -/

open Exchange (writes results) in
/-- What the transports make of a provider's store. -/
structure Agreement (n : Network) (name : String) (p : ProviderId) (s : Store) (root : Cid) : Prop where
  /-- All that can be reached is transferred, exactly if it is stored. -/
  stored : (∃ bs, n.transfer name p root = .ok bs) ↔ s.Whole root
  covers : ∀ bs, n.transfer name p root = .ok bs → Traversal.Covers s root bs
  /-- A walk ends in whichever order its fetches go on. -/
  walks : ∀ c x, Exchange.ofConfig? c = some x → x.admits = true →
    ∃ m, ∀ as, (Exchange.Quest.single n name p root).Fitting (x.step (.start root [p])).1 as →
      as.length ≤ m ∧
      ((∀ a, ¬ (Exchange.Quest.single n name p root).Fits (x.run (.start root [p] :: as)).1 a) →
        ∃ r, results (x.run (.start root [p] :: as)).2 = [r] ∧ ((∃ t, r = .ok t) ↔ s.Whole root) ∧
          ∀ t bs, r = .ok t → n.transfer name p root = .ok bs →
            ∀ d, (t.stats root d).Brings (writes (x.run (.start root [p] :: as)).2) root p bs)
  transfers : ∀ e : Errand Transfer.Phase, e.root = root → e.candidate.provider = p →
    e.transfer = n.transfer name p root →
    ∃ m r, (e.run Transfer.transport m).verdict = .over r ∧ ((∃ st, r = .ok st) ↔ s.Whole root) ∧
      ∀ st bs, r = .ok st → n.transfer name p root = .ok bs →
        st.Brings (e.run Transfer.transport m).handed root p bs
  /-- What is transferred can be downloaded, in any chunks, if it can be put into an archive. -/
  downloads : ∀ bs, n.transfer name p root = .ok bs → (∀ b ∈ bs, Archive.Servable b) →
    ∀ e : Errand Download.Phase, e.root = root → e.chunks.flatten = Archive.write [root] bs →
    (e.candidate.addrs.findSome? Endpoint.ofAddress).isSome →
    ∃ m st, (e.run Download.transport m).verdict = .over (.ok st) ∧
      st.Brings (e.run Download.transport m).handed root e.candidate.provider (bs.map Archive.unlinked) ∧
      st.size = totalSize bs ∧ st.blocks = bs.length

theorem totalSize_unlinked (bs : List Block) : totalSize (bs.map Archive.unlinked) = totalSize bs := by
  induction bs with
  | nil => rfl
  | cons b bs ih => exact congrArg (b.data.length + ·) ih

theorem transports_agree (hs : n.reach name p = .ok s) : Agreement n name p s root where
  stored := by
    simp only [Network.transfer_eq_ok_iff hs]
    exact Traversal.fromRoot_ok_iff
  covers bs hbs := (Traversal.fromRoot_covers ((Network.transfer_eq_ok_iff hs).mp hbs)).1
  walks c x hx hadm := by
    obtain ⟨m, hm⟩ := Exchange.Quest.exists_ends (.single n name p root) (Exchange.Quest.finite_single hs) hx hadm
    refine ⟨m, fun as has => ⟨(hm as has).1, fun hstuck => ?_⟩⟩
    obtain ⟨r, hr, he, hf⟩ := (hm as has).2 hstuck
    exact ⟨r, hr, Exchange.Quest.ends_single hs he hf⟩
  transfers e := by
    rintro rfl rfl he
    have hstored : (∃ bs, e.transfer = .ok bs) ↔ s.Whole e.root := by
      simp only [he, Network.transfer_eq_ok_iff hs]
      exact Traversal.fromRoot_ok_iff
    rw [← he]
    cases h : e.transfer with
    | ok bs =>
      obtain ⟨hcovers, hwhole⟩ := Traversal.fromRoot_covers ((Network.transfer_eq_ok_iff hs).mp (he.symm.trans h))
      obtain ⟨m, st, hm, htells⟩ := Errand.run_transfer h hcovers.first
      refine ⟨m, .ok st, by rw [hm], ⟨fun _ => hwhole, fun _ => ⟨st, rfl⟩⟩, ?_⟩
      rintro st' bs' hst hbs
      cases hst
      cases hbs
      rw [hm]
      exact htells.brings hcovers.once (.refl bs)
    | error err =>
      obtain ⟨m, err', hm⟩ := Errand.run_no_transfer h
      refine ⟨m, .error err', by rw [hm], ⟨nofun, fun hwhole => ?_⟩, nofun⟩
      obtain ⟨bs, hbs⟩ := hstored.mpr hwhole
      rw [h] at hbs
      cases hbs
  downloads bs hbs hservable e := by
    rintro rfl hchunks hendpoint
    obtain ⟨endpoint, hendpoint⟩ := Option.isSome_iff_exists.mp hendpoint
    obtain ⟨hcovers, -⟩ := Traversal.fromRoot_covers ((Network.transfer_eq_ok_iff hs).mp hbs)
    obtain ⟨b, hb, hroot⟩ := hcovers.first
    have hwent : (e.gateway endpoint).WentWell (bs.map Archive.unlinked) := by
      refine ⟨?_, ⟨0, rfl, Nat.zero_le _⟩, ?_, ⟨Archive.unlinked b, ?_, hroot⟩, ?_, fun _ _ _ => rfl⟩
      · intro x hx
        obtain ⟨chunk, -, rfl⟩ := List.mem_map.mp hx
        exact Nat.zero_le _
      · rw [Errand.octets_gateway, hchunks]
        exact Archive.isArchive_of_servable hservable ⟨b, List.mem_of_head? hb, hroot⟩
      · rw [List.head?_map, hb]
        rfl
      · rw [List.forall_mem_map]
        exact fun a ha => (Archive.verify_unlinked a).trans (hservable a ha).verified
    obtain ⟨m, st, hm, hhanded, htells⟩ := Errand.run_download hendpoint hwent
    refine ⟨m, st, hm, htells.brings ?_ (by rw [hhanded]), ?_, ?_⟩
    · rw [List.map_map]
      exact hcovers.once
    · rw [htells.size, totalSize_unlinked]
    · rw [htells.blocks, List.length_map]

/-- Two blocks that link to each other, and the first to itself. -/
def ring : List Block := [
  { cid := ⟨[1, 0x55, 0, 1, 7]⟩, data := [7], links := [⟨[1, 0x55, 0, 1, 7]⟩, ⟨[1, 0x55, 0, 2, 8, 9]⟩] },
  { cid := ⟨[1, 0x55, 0, 2, 8, 9]⟩, data := [8, 9], links := [⟨[1, 0x55, 0, 1, 7]⟩] }]

theorem ring_agrees :
    let s : Store := ({} : Store).extend ring
    let n : Network := { peers := [{ id := ⟨[7]⟩, network := "ring", store := s }], joined := 1 }
    n.reach "ring" ⟨[7]⟩ = .ok s ∧ Agreement n "ring" ⟨[7]⟩ s ⟨[1, 0x55, 0, 1, 7]⟩ ∧
      n.transfer "ring" ⟨[7]⟩ ⟨[1, 0x55, 0, 1, 7]⟩ = .ok ring ∧ ∀ b ∈ ring, Archive.Servable b := by
  intro s n
  have hs : n.reach "ring" ⟨[7]⟩ = .ok s := by decide
  refine ⟨hs, transports_agree hs, (Network.transfer_eq_ok_iff hs).mpr (by cbv), ?_⟩
  rw [ring, List.forall_mem_cons, List.forall_mem_singleton]
  exact ⟨⟨by decide, by decide⟩, ⟨by decide, by decide⟩⟩

end Courier
