import Courier.Archive.Chunks
import Courier.Archive.Fault
import Courier.Archive.Reader
import Courier.Archive.Section
import Courier.Archive.Verify
import Courier.Archive.Writer
import Courier.Attempt.Basic
import Courier.Attempt.Download
import Courier.Attempt.Fallback
import Courier.Attempt.Stages
import Courier.Attempt.Transfer
import Courier.Attempt.Vigil
import Courier.Block
import Courier.Broadcast
import Courier.Bytes
import Courier.Candidate
import Courier.Ceiling
import Courier.Config.Basic
import Courier.Config.Json
import Courier.Construction
import Courier.Contest
import Courier.Context
import Courier.Context.Family
import Courier.Context.Glance
import Courier.Context.Wait
import Courier.Context.Watch
import Courier.Context.Work
import Courier.Course
import Courier.Dag
import Courier.Digest.Sha256
import Courier.Display
import Courier.Duration
import Courier.Endpoint
import Courier.Error
import Courier.Event
import Courier.Exchange.Basic
import Courier.Exchange.Inquiry
import Courier.Exchange.Trade
import Courier.Finder
import Courier.Ident
import Courier.Ident.Json
import Courier.Json.Binary
import Courier.Json.Decimal
import Courier.Json.Doc
import Courier.Json.Shape
import Courier.Json.Value
import Courier.Json.Writer
import Courier.Lending
import Courier.Network.Basic
import Courier.Network.Traversal
import Courier.Orchestrator
import Courier.Policy
import Courier.Proofs.AgreementSound
import Courier.Proofs.ArchiveGrammar
import Courier.Proofs.Base64UrlSound
import Courier.Proofs.BlameSound
import Courier.Proofs.BreakdownSound
import Courier.Proofs.BroadcastLemmas
import Courier.Proofs.BroadcastSound
import Courier.Proofs.CapacitySound
import Courier.Proofs.CborGrammar
import Courier.Proofs.CommitmentSound
import Courier.Proofs.ConfigSound
import Courier.Proofs.ConstructionSound
import Courier.Proofs.ContestSound
import Courier.Proofs.CourseLemmas
import Courier.Proofs.DispatchSound
import Courier.Proofs.DownloadSound
import Courier.Proofs.EndpointSound
import Courier.Proofs.ErrandSound
import Courier.Proofs.ExchangeLemmas
import Courier.Proofs.ExchangeSound
import Courier.Proofs.FallbackSound
import Courier.Proofs.FamilySound
import Courier.Proofs.FinderSound
import Courier.Proofs.FirstByteSound
import Courier.Proofs.GatherSound
import Courier.Proofs.HeaderSound
import Courier.Proofs.HexSound
import Courier.Proofs.HoldingSound
import Courier.Proofs.IdentSound
import Courier.Proofs.InquirySound
import Courier.Proofs.JsonSound
import Courier.Proofs.KeyLemmas
import Courier.Proofs.LedgerSound
import Courier.Proofs.LendingSound
import Courier.Proofs.LevelSound
import Courier.Proofs.ListLemmas
import Courier.Proofs.LookSound
import Courier.Proofs.PreorderSound
import Courier.Proofs.ProtocolSound
import Courier.Proofs.QuestLemmas
import Courier.Proofs.RankingSound
import Courier.Proofs.ReaderSound
import Courier.Proofs.RecordLemmas
import Courier.Proofs.RecoverySound
import Courier.Proofs.RegistrySound
import Courier.Proofs.ResolutionSound
import Courier.Proofs.ServiceSound
import Courier.Proofs.SlotsSound
import Courier.Proofs.StageSound
import Courier.Proofs.StepLemmas
import Courier.Proofs.StoreSound
import Courier.Proofs.TableLemmas
import Courier.Proofs.TraceSound
import Courier.Proofs.TradeSound
import Courier.Proofs.TrafficSound
import Courier.Proofs.TraversalSound
import Courier.Proofs.VarintSound
import Courier.Proofs.VerifySound
import Courier.Proofs.WaitSound
import Courier.Proofs.WalkSound
import Courier.Proofs.WriterSound
import Courier.Protocol
import Courier.Race
import Courier.Registry
import Courier.Service
import Courier.Session
import Courier.Simulation.Client
import Courier.Simulation.Contexts
import Courier.Simulation.Desk
import Courier.Simulation.Fetch
import Courier.Simulation.Gateway
import Courier.Simulation.Hosts
import Courier.Simulation.Scenario
import Courier.Simulation.Script
import Courier.Simulation.Setup
import Courier.Simulation.Task
import Courier.Simulation.Walk
import Courier.Simulation.World
import Courier.Slots
import Courier.Store
import Courier.Subscribers
import Courier.Text.Base64Url
import Courier.Text.Canonical.Form
import Courier.Text.Canonical.Parts
import Courier.Text.Canonical.Rank
import Courier.Text.Cursive
import Courier.Text.Digits
import Courier.Text.Direction
import Courier.Text.Hex
import Courier.Text.Hidden
import Courier.Text.Mark
import Courier.Text.Percent
import Courier.Text.Quoted
import Courier.Text.Split
import Courier.Text.Table
import Courier.Traffic
import Courier.Url.Basic
import Courier.Url.Domain
import Courier.Url.Folding
import Courier.Url.Host
import Courier.Url.Ipv4
import Courier.Url.Ipv6
import Courier.Url.Label
import Courier.Url.Parser
import Courier.Url.Punycode
import Courier.Url.Target
import Courier.Varint
