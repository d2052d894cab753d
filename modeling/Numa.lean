import Numa.AnswerSoundness
import Numa.ChainCompleteness
import Numa.DenialTrust
import Numa.SignerName
import Numa.CanonicalName
import Numa.NsecDenial
import Numa.Base32Hex
import Numa.Nsec3Denial
import Numa.TypeBitmap
import Numa.NodataDenial
import Numa.Cache
import Numa.Interaction
import Numa.Recursive
import Numa.Server
import Numa.Sourced
import Numa.BoundedStaleness
import Numa.Packet
import Numa.BufferRules
import Numa.NameCodec
import Numa.RecordCodec
import Numa.PacketRoundTrip
import Numa.CacheInvariant
import Numa.Broadcast
import Numa.SingleFlight
import Numa.ResolverRules
import Numa.Bailiwick
import Numa.ValidatedContent
import Numa.ClientResponse
import Numa.Pipeline
import Numa.Service
import Numa.StrictMode
import Numa.StoredStatus
import Numa.AuthenticData
import Numa.Forward
import Numa.ResponseMatching
import Numa.DenialCompleteness
import Numa.WirePatch
import Numa.ReaderRules
import Numa.ScanAgreement
import Numa.CacheFidelity
import Numa.CnameChase
import Numa.TypeIdentity
import Numa.RebindProvenance
import Numa.DenotedName
import Numa.AddressText
import Numa.Clock
import Numa.OverrideStore
import Numa.HeldNames
import Numa.Blocklist
import Numa.SharedStores
import Numa.MessageWalk
import Numa.WithinMessage
import Numa.MessageBounds
import Numa.UdpPayload
import Numa.RdataNames
import Numa.Reemission
import Numa.NamesKept
import Numa.Lockstep
import Numa.Network
import Numa.FullQuestions
import Numa.QueryMinimisation
import Numa.DomainList
import Numa.BlocklistRefresh
import Numa.ServerAttempts
import Numa.LanServices
import Numa.LanDiscovery
import Numa.OdohKeys
import Numa.Hedging
import Numa.Failover
import Numa.Calls
import Numa.CallDepth
import Numa.ClientPolicy
import Numa.LocalData
import Numa.LocalAnswers
import Numa.LocalAliases
import Numa.CachedAnswers
import Numa.SvcParams
import Numa.SvcbIndices
import Numa.PrivateAnswers
import Numa.CacheFreshness
import Numa.BlockingRules
import Numa.TtlBounds
import Numa.WhiteSpace
import Numa.BlocklistLines
import Numa.SuffixMatching
import Numa.LexicographicOrder
import Numa.CanonicalWire
import Numa.TextOrder
import Numa.SignedForm
import Numa.Capacity
import Numa.Der
import Numa.FallbackResponse
import Numa.HeaderFidelity
import Numa.MappedPeers
import Numa.ProxyRoutes
import Numa.RsaKey
import Numa.ShapedResponse
import Numa.SrttRuns
import Numa.ValidityWindow
import Numa.ZoneLookup
import Numa.Loops
import Numa.Positional
import Numa.BitmapScan
import Numa.OwnerHashes
import Numa.NameReading
import Numa.FramedConnection
import Numa.KeyCustody
import Numa.HostFiles
import Numa.QueryLog
import Numa.UdpSwitch
import Numa.ServiceRuns
import Numa.ForwardingRules
import Numa.Relay
import Numa.ListenerRuns
import Numa.Doh
import Numa.LanRuns
