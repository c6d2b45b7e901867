import Courier.Config.Basic
import Courier.Ident.Json
import Courier.Json.Writer
/-!
# Configurations in JSON

The names are in camel case. Any field may be left out and has its zero value
then; names that are not known are skipped. The supplied collaborators have no
text form. Durations are whole seconds and nanoseconds, protocols their codes.
-/

namespace Courier

open Json (Doc Shape)

/-! ## Reading -/

def readProtocols : Doc → Except Json.Fault (List Protocol) :=
  Doc.listOf fun d => d.word64.map Protocol.ofCode

def readProviders (d : Doc) : Except Json.Fault (Option ProviderSet) :=
  d.nullOr fun d =>
    (d.listOf readId).map fun ids => ProviderSet.ofList (ids.map ProviderId.mk)

namespace Config

/-- The fields in their declared order. -/
def shape : Shape Config Config where
  fields := [
    ("providerTimeout", fun d c =>
      (Shape.duration.read d).map fun v => { c with providerTimeout := v }),
    ("concurrentSpRetrievals", fun d c =>
      d.word64.map fun v => { c with concurrentRetrievals := v }),
    ("globalTimeout", fun d c =>
      (Shape.duration.read d).map fun v => { c with globalTimeout := v }),
    ("networkOptions", fun d c => (d.keptObject 2).map fun v => { c with networkOptions := v }),
    ("protocols", fun d c => (readProtocols d).map fun v => { c with protocols := v }),
    ("providerBlockList", fun d c => (readProviders d).map fun v => { c with blockList := v }),
    ("providerAllowList", fun d c => (readProviders d).map fun v => { c with allowList := v }),
    ("bitswapConcurrency", fun d c => d.word64.map fun v => { c with concurrency := v }),
    ("bitswapConcurrencyPerRetrieval", fun d c =>
      d.word64.map fun v => { c with concurrencyPerRetrieval := v })]
  skipsUnknown := true
  start := {}
  finish := .ok

def read (s : String) : Except Json.Fault Config := Json.read shape.read s

/-! ## Writing -/

def providersValue : Option ProviderSet → Json.Value
  | none => .null
  | some s => .list (s.members.map ProviderId.toJson)

def toJson (c : Config) : Json.Value :=
  .object [
    ("providerTimeout", .ofDuration c.providerTimeout),
    ("concurrentSpRetrievals", .number (.natural c.concurrentRetrievals)),
    ("globalTimeout", .ofDuration c.globalTimeout),
    ("networkOptions", .object c.networkOptions),
    ("protocols", .list (c.protocols.map fun p => .number (.natural p.code))),
    ("providerBlockList", providersValue c.blockList),
    ("providerAllowList", providersValue c.allowList),
    ("bitswapConcurrency", .number (.natural c.concurrency)),
    ("bitswapConcurrencyPerRetrieval", .number (.natural c.concurrencyPerRetrieval))]

end Config

/-! ## The policy of one provider -/

/-- The fields that were read so far; both have to be there. -/
structure ProviderFields where
  timeout : Option Duration := none
  limit : Option UInt64 := none

def ProviderConfig.shape : Shape ProviderFields ProviderConfig where
  fields := [
    ("retrievalTimeout", fun d s =>
      (Shape.duration.read d).map fun v => { s with timeout := some v }),
    ("maxConcurrentRetrievals", fun d s => d.word64.map fun v => { s with limit := some v })]
  skipsUnknown := true
  start := {}
  finish
    | ⟨some t, some l⟩ => .ok ⟨t, l⟩
    | _ => .error .mismatch

def ProviderConfig.read (s : String) : Except Json.Fault ProviderConfig :=
  Json.read ProviderConfig.shape.read s

end Courier
