import PortHub.Agent.CarrierAffinity
import PortHub.Agent.DnsResolution
import PortHub.Agent.ExitRecovery
import PortHub.Agent.Outbound
import PortHub.Agent.Probe
import PortHub.Agent.StreamPolicy
import PortHub.Api.AccountClosure
import PortHub.Api.Allocation
import PortHub.Api.CounterOrder
import PortHub.Api.CredentialIssue
import PortHub.Api.ExitGraph
import PortHub.Api.GrantRuns
import PortHub.Api.InventoryQuery
import PortHub.Api.PortRefresh
import PortHub.Api.RangeRuns
import PortHub.Api.RelayForwarding
import PortHub.Api.RelayLifecycle
import PortHub.Api.SavedRules
import PortHub.Api.SeriesDelta
import PortHub.Api.SessionInvitations
import PortHub.Api.TerminalTraffic
import PortHub.Api.WebTargets
import PortHub.Components.CatalogChain
import PortHub.Components.StoreRuns
import PortHub.Egress.ProxySessions
import PortHub.Firewall.RuleMeaning
import PortHub.Firewall.Service
import PortHub.Mesh.DnsMatching
import PortHub.Mesh.Pins
import PortHub.Mesh.StreamTrust
import PortHub.Mesh.TurnFraming
import PortHub.Network.Fallback
import PortHub.Network.HalfClose
import PortHub.Network.Panics
import PortHub.Network.PathExpiry
import PortHub.Network.Rendezvous
import PortHub.Network.TcpStream
import PortHub.Runtime.ActivityRuns
import PortHub.Runtime.Charging
import PortHub.Runtime.EdgeHeaders
import PortHub.Runtime.HealthHistory
import PortHub.Runtime.JournalReads
import PortHub.Runtime.RouteReloads
import PortHub.Terminal.AttachmentRuns
import PortHub.Terminal.Capacity
import PortHub.Terminal.DeliveryRuns
import PortHub.Terminal.Envelope
import PortHub.Terminal.History
import PortHub.Terminal.HubAttach
import PortHub.Terminal.PagerRuns
import PortHub.Terminal.SnapshotRuns
import PortHub.Terminal.ViewerRuns
import PortHub.Transfer.UploadIntegrity
import PortHub.Transfer.Watching
