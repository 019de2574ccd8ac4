import DiscoveryClient.Reconnect
import DiscoveryClient.PersistedRuns
import DiscoveryClient.SelfReferral
import DiscoveryClient.Restart
import DiscoveryClient.LogPageSnapshot
import DiscoveryClient.HostApi
import DiscoveryClient.SessionTable
import DiscoveryClient.SessionLeak
import DiscoveryClient.SessionIDs
import DiscoveryClient.Forwarders
import DiscoveryClient.NotificationChannels
import DiscoveryClient.CommandIDs
import DiscoveryClient.CommandReplies
import DiscoveryClient.ClientStop
import DiscoveryClient.BackgroundLoops
import DiscoveryClient.AsyncEvents
import DiscoveryClient.LogPageLinear
import DiscoveryClient.LogPageProgress
import DiscoveryClient.ParserTotal
import DiscoveryClient.TcpPdu
import DiscoveryClient.DataReassembly
import DiscoveryClient.FailedCommands
import DiscoveryClient.Reconciliation
import DiscoveryClient.ClusterIsolation
import DiscoveryClient.GoQuote
import DiscoveryClient.NvmeConnect
import DiscoveryClient.SecretTexts
import DiscoveryClient.NvmeController
import DiscoveryClient.NvmeServer
import DiscoveryClient.CapsuleReplies
import DiscoveryClient.ConfTokens
import DiscoveryClient.GoDecimal
import DiscoveryClient.ConfCarried
import DiscoveryClient.ConfGen
import DiscoveryClient.AddEntryAtomic
import DiscoveryClient.FileOrder
import DiscoveryClient.CacheMetrics
import DiscoveryClient.GaugeRuns
import DiscoveryClient.AutoDetect
import DiscoveryClient.ConnectAll
import DiscoveryClient.DetectedControllers
import DiscoveryClient.DiscoverDecoding
import DiscoveryClient.IoctlLogPage
import DiscoveryClient.AsyncRequests
import DiscoveryClient.CommandLayout
import DiscoveryClient.ControllerConfig
import DiscoveryClient.FlatBuffer
import DiscoveryClient.LogPageEncodings
import DiscoveryClient.ScatterListFlat
import DiscoveryClient.CapsuleStream
import DiscoveryClient.ConnectCapsule
import DiscoveryClient.ConnectRetries
import DiscoveryClient.GoUuid
import DiscoveryClient.HostIdentity
import DiscoveryClient.ConfigPublication
import DiscoveryClient.DiscoverSession
import DiscoveryClient.InitConnection
import DiscoveryClient.PublishedPorts
import DiscoveryClient.QueueTeardown
import DiscoveryClient.RandomConnections
import DiscoveryClient.SessionRuns
import DiscoveryClient.ConnInfo
import DiscoveryClient.HostIDRuns
import DiscoveryClient.KeepAliveTiming
import DiscoveryClient.LostConfiguration
import DiscoveryClient.OneShotDiscovery
import DiscoveryClient.PublishedServices
