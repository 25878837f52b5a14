import Foretias.Core.Calendar
import Foretias.Core.CalendarFile
import Foretias.Core.LoadGate
import Foretias.Core.CrashSafety
import Foretias.Core.CalendarRuns
import Foretias.Core.TamperEvidence
import Foretias.Core.VerificationPaths
import Foretias.Chronomatter.Integrity
import Foretias.Chronomatter.Completed
import Foretias.Server.Communerdette
import Foretias.Server.TbidMessages
import Foretias.Chronomatter.Concurrent
import Foretias.Chronomatter.Interleaving
import Foretias.Server.Mirror
import Foretias.Server.MirrorHandlers
import Foretias.Server.MirrorRuns
import Foretias.Server.ChainAcceptance
import Foretias.Server.HonestDelivery
import Foretias.Server.MirrorInvariant
import Foretias.Library.Chunks
import Foretias.Server.HistoryDump
import Foretias.Server.StampDurability
import Foretias.Server.ConcurrentSaves
import Foretias.C11.Merkle
import Foretias.C11.MerkleProofs
import Foretias.C11.NoiseXx
import Foretias.C11.NoiseCalls
import Foretias.C11.NoiseNonces
import Foretias.C11.NoiseSteps
import Foretias.Library.BinarySearch
import Foretias.Library.Codec
import Foretias.C11.NoiseHandshake
import Foretias.C11.NoiseAgreement
import Foretias.C11.NoiseFailures
import Foretias.C11.NoiseAuthentication
import Foretias.Library.TextLines
import Foretias.Server.EncryptedStore
import Foretias.Server.StoreRuns
import Foretias.Server.StoreCrashes
import Foretias.Server.StoreRestarts
import Foretias.Server.StorageProof
import Foretias.Server.StorageAnswers
import Foretias.Server.StorageCoverage
import Foretias.Core.FamilyRecord
import Foretias.Server.FamilyExchange
import Foretias.Server.PeerRegistration
import Foretias.Server.TbidIndex
import Foretias.Library.PendingCalls
import Foretias.Server.DhtLookups
import Foretias.Server.LookupRuns
import Foretias.Server.ChannelBindingGate
import Foretias.Server.RelationshipBinding
import Foretias.Server.TbidHandshake
import Foretias.Core.ProbityReport
import Foretias.Server.ProbityGossip
import Foretias.Core.CollisionDetector
import Foretias.Server.Dormancy
import Foretias.C11.MerkleMemory
import Foretias.Core.SignatureLengths
import Foretias.Server.CrossNodeVerify
import Foretias.Server.StorageProofRequests
import Foretias.Server.VerificationEntryPoints
import Foretias.Client.RemoteClient
import Foretias.Core.CalendarLookups
import Foretias.Chronomatter.IntegrityRange
import Foretias.Server.ChrononChain
import Foretias.Chronomatter.StampCount
import Foretias.C11.NoiseAtomicity
import Foretias.C11.Privkey
import Foretias.Library.KeyedTable
import Foretias.Server.BinBasedLru
import Foretias.Server.ChrononAttestation
import Foretias.Server.MirrorWorkers
import Foretias.C11.MerklePaths
import Foretias.Server.MirrorAccounting
import Foretias.Server.MirrorReconcile
import Foretias.Library.NewestKept
import Foretias.Server.ConcurrentAppends
import Foretias.Server.ProbityRetention
import Foretias.Core.SignatureEnvelope
import Foretias.Server.SingleRecords
import Foretias.Library.MaxHeap
import Foretias.Server.CommandQueue
import Foretias.Server.RouteBackoff
import Foretias.Server.LivenessCycles
import Foretias.Server.RelationshipRegistry
import Foretias.Server.DhtPeerSource
import Foretias.Server.PeerPool
import Foretias.Core.EpochSnapshot
import Foretias.Library.Framing
import Foretias.Server.FrameCodecs
import Foretias.C11.SigningTbid
import Foretias.C11.NoiseChannel
import Foretias.Server.JsonRpc
import Foretias.Server.Connection
import Foretias.Server.RemoteCalls
import Foretias.Library.EntryTable
import Foretias.Server.SwarmLoop
import Foretias.Server.SwarmQueries
import Foretias.Server.SwarmNode
import Foretias.Server.GossipTopics
import Foretias.Client.WireRecords
import Foretias.Server.RemoteStamps
