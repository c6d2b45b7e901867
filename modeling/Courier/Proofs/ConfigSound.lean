import Courier.Config.Json
import Courier.Proofs.IdentSound

/-!
# Configurations come back

The text of a configuration reads as that configuration, and so does the text
from which members were deleted, but for their fields, which then have their
zero value (`read_print`). A protocol comes back by its code: a raw code that
has a name comes back as the name. The supplied collaborators have no text.
-/

namespace Courier

open Json (Doc Entry Shape Value)

/-! ## Identities and sets of them -/

theorem readId_ofValue (b : Bytes) : readId (.ofValue (.text (Base64Url.encode b))) = .ok b :=
  readId_eq_ok_iff.mpr rfl

namespace ProviderSet

theorem ofList_members : ∀ {l : List ProviderId} (h : l.Nodup), ofList l = ⟨l, h⟩
  | [], _ => rfl
  | p :: l, h => by
    have ih := ofList_members (List.nodup_cons.mp h).2
    rw [ofList] at ih
    rw [ofList, List.foldr_cons, ih, insert, dif_neg (List.nodup_cons.mp h).1]

end ProviderSet

theorem readProviders_ofValue (s : Option ProviderSet) :
    readProviders (.ofValue (Config.providersValue s)) = .ok s := by
  cases s with
  | none => rfl
  | some s =>
    have hids : (Doc.ofValue (Config.providersValue (some s))).listOf readId =
        .ok (s.members.map (·.bytes)) :=
      Doc.listOf_ofValue fun p _ => readId_ofValue p.bytes
    have hset : ProviderSet.ofList ((s.members.map (·.bytes)).map ProviderId.mk) = s := by
      rw [List.map_map]
      exact (congrArg _ (List.map_id _)).trans (ProviderSet.ofList_members s.nodup)
    calc readProviders (.ofValue (Config.providersValue (some s)))
        = (((Doc.ofValue (Config.providersValue (some s))).listOf readId).map fun ids =>
            ProviderSet.ofList (ids.map ProviderId.mk)).map some := rfl
      _ = .ok (some s) := by simp only [hids, Except.map, hset]

/-! ## Numbers and durations -/

theorem word64_ofValue (n : UInt64) : (Doc.ofValue (.number (.natural n))).word64 = .ok n := by
  have : n.toNat < UInt64.size := n.toNat_lt
  simp [Doc.ofValue, Doc.word64, Doc.natural, this, Except.map]

theorem readProtocols_ofValue (l : List Protocol) :
    readProtocols (.ofValue (.list (l.map fun p => .number (.natural p.code)))) =
      .ok (l.map fun p => Protocol.ofCode p.code) :=
  Doc.listOf_ofValue fun p _ => by
    rw [word64_ofValue]
    rfl

def durationEntries (d : Duration) : List (Entry Shape.DurationFields) :=
  [⟨"secs", .number (.natural d.secs), fun s => { s with secs := some d.secs.toNat }⟩,
    ⟨"nanos", .nat d.nanos.val, fun s => { s with nanos := some d.nanos.val }⟩]

theorem natural_ofValue {bound n : Nat} (h : n < bound) (hn : n < UInt64.size) :
    (Doc.ofValue (.nat n)).natural bound = .ok n := by
  have : (UInt64.ofNat n).toNat = n := UInt64.toNat_ofNat_of_lt hn
  simp [Value.nat, Doc.ofValue, Doc.natural, this, h]

theorem duration_ofValue (d : Duration) : Shape.duration.read (.ofValue (.ofDuration d)) = .ok d := by
  have hn : d.nanos.val < 1000000000 := d.nanos.isLt
  have hs : d.secs.toNat < UInt64.size := d.secs.toNat_lt
  have hread : ∀ e ∈ durationEntries d, e.ReadBy Shape.duration.fields := by
    simp only [durationEntries, List.forall_mem_cons, List.not_mem_nil, false_imp_iff, implies_true,
      and_true]
    refine ⟨⟨_, rfl, fun s => ?_⟩, ⟨_, rfl, fun s => ?_⟩⟩
    · have := natural_ofValue hs hs
      rw [Value.nat, UInt64.ofNat_toNat] at this
      simp only [this, bind, Except.bind, pure, Except.pure]
    · have h32 : d.nanos.val < UInt32.size := Nat.lt_trans hn (by decide)
      have := natural_ofValue h32 (Nat.lt_trans hn (by decide))
      simp only [this, bind, Except.bind, pure, Except.pure]
  have hnames : ((durationEntries d).map (·.name)).Nodup := by
    simp [durationEntries]
  have hdiv : d.nanos.val / 1000000000 = 0 := Nat.div_eq_of_lt hn
  calc Shape.duration.read (.ofValue (.ofDuration d))
      = Shape.duration.finish ⟨some d.secs.toNat, some d.nanos.val⟩ := Shape.read_entries hread hnames
    _ = .ok d := by
      simp [Shape.duration, hdiv, hs, Nat.mod_eq_of_lt hn]

/-! ## Configurations -/

namespace Config

/-- A configuration as the entries of its record. -/
def entries (c : Config) : List (Entry Config) :=
  [⟨"providerTimeout", .ofDuration c.providerTimeout,
      fun s => { s with providerTimeout := c.providerTimeout }⟩,
    ⟨"concurrentSpRetrievals", .number (.natural c.concurrentRetrievals),
      fun s => { s with concurrentRetrievals := c.concurrentRetrievals }⟩,
    ⟨"globalTimeout", .ofDuration c.globalTimeout, fun s => { s with globalTimeout := c.globalTimeout }⟩,
    ⟨"networkOptions", .object c.networkOptions,
      fun s => { s with networkOptions := c.networkOptions }⟩,
    ⟨"protocols", .list (c.protocols.map fun p => .number (.natural p.code)),
      fun s => { s with protocols := c.protocols.map fun p => Protocol.ofCode p.code }⟩,
    ⟨"providerBlockList", providersValue c.blockList, fun s => { s with blockList := c.blockList }⟩,
    ⟨"providerAllowList", providersValue c.allowList, fun s => { s with allowList := c.allowList }⟩,
    ⟨"bitswapConcurrency", .number (.natural c.concurrency),
      fun s => { s with concurrency := c.concurrency }⟩,
    ⟨"bitswapConcurrencyPerRetrieval", .number (.natural c.concurrencyPerRetrieval),
      fun s => { s with concurrencyPerRetrieval := c.concurrencyPerRetrieval }⟩]

theorem toJson_eq (c : Config) : c.toJson = Entry.object c.entries := rfl

theorem names_nodup (c : Config) : (c.entries.map (·.name)).Nodup := by
  simp [entries]

/-- Every entry is read by the field of its name, if the options can be kept. -/
theorem readBy_shape {c : Config}
    (hopts : (Doc.ofValue (.object c.networkOptions)).keptObject 2 = .ok c.networkOptions) :
    ∀ e ∈ c.entries, e.ReadBy shape.fields := by
  have done {α : Type} {a : α} {r : Except Json.Fault α} (h : r = .ok a) (f : α → Config) :
      r.map f = .ok (f a) := by rw [h]; rfl
  simp only [entries, List.forall_mem_cons, List.not_mem_nil, false_imp_iff, implies_true, and_true]
  exact ⟨⟨_, rfl, fun s => done (duration_ofValue _) _⟩, ⟨_, rfl, fun s => done (word64_ofValue _) _⟩,
    ⟨_, rfl, fun s => done (duration_ofValue _) _⟩, ⟨_, rfl, fun s => done hopts _⟩,
    ⟨_, rfl, fun s => done (readProtocols_ofValue _) _⟩,
    ⟨_, rfl, fun s => done (readProviders_ofValue _) _⟩,
    ⟨_, rfl, fun s => done (readProviders_ofValue _) _⟩, ⟨_, rfl, fun s => done (word64_ofValue _) _⟩,
    ⟨_, rfl, fun s => done (word64_ofValue _) _⟩⟩

/-- What a text says of a configuration. -/
def written (c : Config) : Config := { c with finder := none, host := none }

/-- The configuration in which the fields of some names have their zero value. -/
def without (gone : List String) (c : Config) : Config :=
  let kept {α : Type} (name : String) (v zero : α) : α := if name ∈ gone then zero else v
  { c with
    providerTimeout := kept "providerTimeout" c.providerTimeout Duration.zero
    concurrentRetrievals := kept "concurrentSpRetrievals" c.concurrentRetrievals 0
    globalTimeout := kept "globalTimeout" c.globalTimeout Duration.zero
    networkOptions := kept "networkOptions" c.networkOptions []
    protocols := kept "protocols" c.protocols []
    blockList := kept "providerBlockList" c.blockList none
    allowList := kept "providerAllowList" c.allowList none
    concurrency := kept "bitswapConcurrency" c.concurrency 0
    concurrencyPerRetrieval := kept "bitswapConcurrencyPerRetrieval" c.concurrencyPerRetrieval 0 }

theorem without_nil (c : Config) : c.without [] = c := by
  simp [without]

/-- The same in every field, protocols by their codes. -/
structure Agrees (c d : Config) : Prop where
  finder : c.finder = d.finder
  host : c.host = d.host
  providerTimeout : c.providerTimeout = d.providerTimeout
  concurrentRetrievals : c.concurrentRetrievals = d.concurrentRetrievals
  globalTimeout : c.globalTimeout = d.globalTimeout
  networkOptions : c.networkOptions = d.networkOptions
  protocols : c.protocols.map Protocol.code = d.protocols.map Protocol.code
  blockList : c.blockList = d.blockList
  allowList : c.allowList = d.allowList
  concurrency : c.concurrency = d.concurrency
  concurrencyPerRetrieval : c.concurrencyPerRetrieval = d.concurrencyPerRetrieval

/-- What the entries that are left make of a configuration of zero values. -/
theorem agrees_foldl (gone : List String) (c : Config) :
    ((c.entries.filter (·.name ∉ gone)).foldl (fun s e => e.set s) ({} : Config)).Agrees
      (c.written.without gone) := by
  have hcodes : (c.protocols.map fun p => Protocol.ofCode p.code).map Protocol.code =
      c.protocols.map Protocol.code := by
    simp only [List.map_map, Function.comp_def, Protocol.code_ofCode]
  rw [List.foldl_filter]
  simp only [entries, List.foldl_cons, List.foldl_nil]
  constructor
  · simp [apply_ite finder, without, written]
  · simp [apply_ite host, without, written]
  · simp [apply_ite providerTimeout, without, written]
  · simp [apply_ite concurrentRetrievals, without, written]
  · simp [apply_ite globalTimeout, without, written]
  · simp [apply_ite networkOptions, without, written]
  · simp [apply_ite protocols, apply_ite (List.map Protocol.code), without, written, hcodes]
  · simp [apply_ite blockList, without, written]
  · simp [apply_ite allowList, without, written]
  · simp [apply_ite concurrency, without, written]
  · simp [apply_ite concurrencyPerRetrieval, without, written]

/-! ## Texts -/

theorem plain_ofDuration (d : Duration) : (Value.ofDuration d).Plain := by
  refine .object (by decide : ["secs", "nanos"].Nodup) ?_
  simp only [List.forall_mem_cons, List.not_mem_nil, false_imp_iff, implies_true, and_true]
  exact ⟨.number (.natural _), .number (.natural _)⟩

theorem plain_providersValue (s : Option ProviderSet) : (providersValue s).Plain := by
  cases s with
  | none => exact .null
  | some s => exact .list_map fun _ _ => .text _

theorem plain_toJson {c : Config} (hopts : (Value.object c.networkOptions).Plain) : c.toJson.Plain := by
  refine .object (by simp) ?_
  simp only [List.forall_mem_cons, List.not_mem_nil, false_imp_iff, implies_true, and_true]
  exact ⟨plain_ofDuration _, .number (.natural _), plain_ofDuration _, hopts,
    .list_map fun _ _ => .number (.natural _), plain_providersValue _, plain_providersValue _,
    .number (.natural _), .number (.natural _)⟩

theorem keptObject_networkOptions {c : Config} (hopts : (Value.object c.networkOptions).Plain)
    (hdepth : c.toJson.depth ≤ 127) :
    (Doc.ofValue (.object c.networkOptions)).keptObject 2 = .ok c.networkOptions := by
  refine Doc.keptObject_ofValue hopts ?_
  rw [toJson, Value.depth, Nat.add_one_le_iff, Nat.lt_succ_iff, Value.membersDepth_le_iff] at hdepth
  have : (Value.object c.networkOptions).depth ≤ 126 := hdepth ("networkOptions", _) (by simp)
  omega

/-- The text of a configuration reads as it, and the text without some members as it with those
fields at zero. -/
theorem read_print (c : Config) (hopts : (Value.object c.networkOptions).Plain)
    (hdepth : c.toJson.depth ≤ 127) :
    (∃ d, Config.read c.toJson.print = .ok d ∧ d.Agrees c.written) ∧
      ∀ gone : List String, ∃ d, Config.read (c.toJson.without gone).print = .ok d ∧
        d.Agrees (c.written.without gone) := by
  have hread (gone : List String) : ∃ d, Config.read (c.toJson.without gone).print = .ok d ∧
      d.Agrees (c.written.without gone) := by
    have hleft : c.toJson.without gone = Entry.object (c.entries.filter (·.name ∉ gone)) := by
      rw [toJson_eq, Entry.object, Value.without, List.filter_map]
      rfl
    have hby := readBy_shape (keptObject_networkOptions hopts hdepth)
    -- to delete members is to leave out entries, and those that are left are read in their order
    refine ⟨_, ?_, agrees_foldl gone c⟩
    rw [Config.read, Json.read_written ((plain_toJson hopts).without gone), hleft, Shape.read_entries
      (fun e he => hby e (List.mem_filter.mp he).1) ((names_nodup c).sublist (List.filter_sublist.map _))]
    rfl
  have hall := hread []
  rw [Value.without_nil, without_nil] at hall
  exact ⟨hall, hread⟩

/-- Options within options, a raw code that has a name, and a list that allows nobody. -/
theorem read_print_nested :
    let c : Config := {
      networkOptions := [("\n", .object [("a", .list [.number (.negative 1), .null]), ("b", .text "é")])]
      protocols := [.other 0x0900, .other 7]
      allowList := some ProviderSet.empty }
    (∃ d, Config.read c.toJson.print = .ok d ∧ d.Agrees c.written) ∧
      ∀ gone : List String, ∃ d, Config.read (c.toJson.without gone).print = .ok d ∧
        d.Agrees (c.written.without gone) := by
  refine read_print _ (.object (by simp) ?_) (by decide)
  simp only [List.forall_mem_cons, List.not_mem_nil, false_imp_iff, implies_true, and_true]
  refine .object (by simp) ?_
  simp only [List.forall_mem_cons, List.not_mem_nil, false_imp_iff, implies_true, and_true]
  refine ⟨.list ?_, .text _⟩
  simp only [List.forall_mem_cons, List.not_mem_nil, false_imp_iff, implies_true, and_true]
  exact ⟨.number (.negative (by decide) (by decide)), .null⟩

end Config

end Courier
