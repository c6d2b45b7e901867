import Courier.Json.Value
import Courier.Policy
import Courier.Protocol
/-!
# Configuration

A configuration is built by applying options in order; the last one that
addresses a field decides it. Fields still at their zero value afterwards take
their defaults.
-/

namespace Courier

/-- A finder or a host supplied by the caller, known by a name. -/
structure Collaborator where
  name : String
  deriving DecidableEq, Repr, Inhabited

structure Config where
  finder : Option Collaborator := none
  host : Option Collaborator := none
  /-- How long a provider may go without delivering data. -/
  providerTimeout : Duration := Duration.zero
  /-- Retrievals from one provider at once; zero for any number. -/
  concurrentRetrievals : UInt64 := 0
  /-- How long a fetch may take; zero for any time. -/
  globalTimeout : Duration := Duration.zero
  /-- Handed to whatever makes the host. -/
  networkOptions : Json.Object := []
  protocols : List Protocol := []
  blockList : Option ProviderSet := none
  allowList : Option ProviderSet := none
  /-- Block requests in flight over all retrievals. -/
  concurrency : UInt64 := 0
  /-- Block requests in flight within one retrieval. -/
  concurrencyPerRetrieval : UInt64 := 0
  deriving Repr, Inhabited

inductive ConfigOption where
  | finder (c : Collaborator)
  | host (c : Collaborator)
  | providerTimeout (d : Duration)
  | concurrentRetrievals (n : UInt64)
  | globalTimeout (d : Duration)
  | networkOptions (o : Json.Object)
  | protocols (l : List Protocol)
  | blockList (s : Option ProviderSet)
  | allowList (s : Option ProviderSet)
  | concurrency (n : UInt64)
  | concurrencyPerRetrieval (n : UInt64)
  deriving Repr, Inhabited

namespace Config

def defaultConcurrency : UInt64 := 32

def defaultConcurrencyPerRetrieval : UInt64 := 12

def apply (c : Config) : ConfigOption → Config
  | .finder f => { c with finder := some f }
  | .host h => { c with host := some h }
  | .providerTimeout d => { c with providerTimeout := d }
  | .concurrentRetrievals n => { c with concurrentRetrievals := n }
  | .globalTimeout d => { c with globalTimeout := d }
  | .networkOptions o => { c with networkOptions := o }
  | .protocols l => { c with protocols := l }
  | .blockList s => { c with blockList := s }
  | .allowList s => { c with allowList := s }
  | .concurrency n => { c with concurrency := n }
  | .concurrencyPerRetrieval n => { c with concurrencyPerRetrieval := n }

/-- Gives every field that is still at its zero value its default. -/
def setDefaults (c : Config) : Config :=
  { c with
    providerTimeout :=
      if c.providerTimeout.isZero then defaultProviderTimeout else c.providerTimeout
    concurrency := if c.concurrency = 0 then defaultConcurrency else c.concurrency
    concurrencyPerRetrieval :=
      if c.concurrencyPerRetrieval = 0 then defaultConcurrencyPerRetrieval
      else c.concurrencyPerRetrieval
    protocols := if c.protocols.isEmpty then Protocol.defaults else c.protocols }

def resolve (options : List ConfigOption) : Config := (options.foldl apply {}).setDefaults

/-- The policy of the session of a configuration. -/
def policy (c : Config) : Policy where
  block := c.blockList
  allow := c.allowList
  default := ⟨c.providerTimeout, c.concurrentRetrievals⟩

end Config

end Courier
