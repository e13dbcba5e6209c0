import FakeNetNG.OrderedDict
import FakeNetNG.Interleaving
import FakeNetNG.Addresses
import FakeNetNG.Hostname
import FakeNetNG.RelayNat
import FakeNetNG.RelayNatInvariant
import FakeNetNG.EgressPolicy
import FakeNetNG.PolicyOperations
import FakeNetNG.RelayNatRuns
import FakeNetNG.PolicyShutdown
import FakeNetNG.RelayGenerations
import FakeNetNG.RelayExpiry
import FakeNetNG.PolicyPermits
import FakeNetNG.AddressChange
import FakeNetNG.RelaySni
import FakeNetNG.ProcessRedirect
import FakeNetNG.RedirectTables
import FakeNetNG.RedirectRuns
import FakeNetNG.RedirectHistory
import FakeNetNG.RedirectPass
import FakeNetNG.Fallible
import FakeNetNG.FlowRecords
import FakeNetNG.PacketHandler
import FakeNetNG.HandlerSpec
import FakeNetNG.HandlerBranches
import FakeNetNG.HandlerRun
import FakeNetNG.EgressConfinement
import FakeNetNG.StartupRace
import FakeNetNG.DnsHistory
import FakeNetNG.BaseNat
import FakeNetNG.BaseNatRuns
import FakeNetNG.ClientHello
import FakeNetNG.ClientHelloSplits
import FakeNetNG.NetPolicy
import FakeNetNG.RelayStream
import FakeNetNG.NetPolicyOperations
import FakeNetNG.NetPolicyRuns
import FakeNetNG.Coordination
import FakeNetNG.CoordinationRuns
import FakeNetNG.CommandCache
import FakeNetNG.CommandRuns
import FakeNetNG.Base64
import FakeNetNG.EventLog
import FakeNetNG.EventPaging
import FakeNetNG.EventRuns
import FakeNetNG.ControlFilter
import FakeNetNG.BoolFilter
import FakeNetNG.FilterSources
import FakeNetNG.WinDivertFilter
import FakeNetNG.FilterMeaning
import FakeNetNG.ControlVerification
import FakeNetNG.FilterTokens
import FakeNetNG.FilterAgreement
import FakeNetNG.FilterExclusion
import FakeNetNG.StopIntent
import FakeNetNG.StopIntentRuns
import FakeNetNG.FaultInjection
import FakeNetNG.ExitRegistration
import FakeNetNG.ExitRecovery
import FakeNetNG.ConfigStore
import FakeNetNG.ConfigJournal
import FakeNetNG.EgressContract
import FakeNetNG.HostMerge
import FakeNetNG.HostVerdict
import FakeNetNG.PcapFormat
import FakeNetNG.CaptureWriter
import FakeNetNG.CaptureValidation
import FakeNetNG.SessionFlows
import FakeNetNG.FlowGenerations
import FakeNetNG.StreamGrouping
import FakeNetNG.JsonText
import FakeNetNG.Utf8Text
import FakeNetNG.OriginalsJournal
import FakeNetNG.OriginalsLoad
import FakeNetNG.OriginalsExact
import FakeNetNG.PortSpec
import FakeNetNG.GuiConfig
import FakeNetNG.GuiValidator
import FakeNetNG.GuiSoundness
import FakeNetNG.ClientHelloOffsets
import FakeNetNG.ClientHelloGrammar
import FakeNetNG.WireName
import FakeNetNG.RedirectQuarantine
import FakeNetNG.PolicySections
import FakeNetNG.RelayQuarantine
import FakeNetNG.PermitStore
import FakeNetNG.DnsAnswer
import FakeNetNG.DnsValidation
import FakeNetNG.DnsLeases
import FakeNetNG.Pieces
import FakeNetNG.TcpAssembly
import FakeNetNG.ObservationChoice
import FakeNetNG.KeepaliveWaiver
import FakeNetNG.HostnameLabels
import FakeNetNG.ReviewedRules
import FakeNetNG.ReviewedMatch
import FakeNetNG.Routines
import FakeNetNG.RelayWorkers
import FakeNetNG.RelayRelease
import FakeNetNG.JsonTokens
import FakeNetNG.ReportJson
import FakeNetNG.OsCalls
import FakeNetNG.ConfigFaults
import FakeNetNG.ConfigAtomic
import FakeNetNG.ConfigActive
import FakeNetNG.Keyed
import FakeNetNG.TopologyProvisioning
import FakeNetNG.TopologySettled
import FakeNetNG.TopologySlots
import FakeNetNG.TopologyComplete
import FakeNetNG.BoolStack
import FakeNetNG.FilterLetters
import FakeNetNG.FilterTotal
import FakeNetNG.FlowRate
import FakeNetNG.TokenBucket
import FakeNetNG.RedirectBudget
import FakeNetNG.FutureWindow
import FakeNetNG.ArtifactRows
import FakeNetNG.CaptureGroups
import FakeNetNG.AfdEvents
import FakeNetNG.AfdLifetimes
import FakeNetNG.UdpEvidence
import FakeNetNG.IpNetwork
import FakeNetNG.KeyedTable
import FakeNetNG.ScopeGuard
import FakeNetNG.ScopeGuardOrder
import FakeNetNG.ScopeGuardFaults
import FakeNetNG.TransportGuard
import FakeNetNG.TransportOutcome
import FakeNetNG.Surplus
import FakeNetNG.BaselineAudit
import FakeNetNG.EndpointOwners
import FakeNetNG.ForeignOwners
import FakeNetNG.BlockScan
import FakeNetNG.Pcapng
import FakeNetNG.PyJson
import FakeNetNG.PcapngBlocks
import FakeNetNG.RunningObservation
import FakeNetNG.RunningVerdict
import FakeNetNG.GuardedSteps
import FakeNetNG.ManagedIpc
import FakeNetNG.ManagedIpcRuns
import FakeNetNG.ManagedIpcLate
import FakeNetNG.ServiceStop
import FakeNetNG.ServiceStopReports
