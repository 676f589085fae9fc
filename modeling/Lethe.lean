import Lethe.Library.LittleEndian
import Lethe.BlockStore
import Lethe.Library.ByteMemory
import Lethe.Library.ClockwiseRing
import Lethe.Library.LabelledRun
import Lethe.SsdBlockStore
import Lethe.SsdSlotFile
import Lethe.SsdInvariant
import Lethe.SsdRecovery
import Lethe.TieredStore
import Lethe.Library.ClockHand
import Lethe.Eviction
import Lethe.EvictionRoom
import Lethe.EvictionPass
import Lethe.TieredStoreInterleaving
import Lethe.Routing
import Lethe.RoutingStability
import Lethe.HashRing
import Lethe.Cache
import Lethe.Cluster
import Lethe.Delivery
import Lethe.InsertReach
import Lethe.Recovery
import Lethe.Client
import Lethe.Service
import Lethe.Connector
import Lethe.ConnectorLoads
import Lethe.PrefixHits
import Lethe.Membership
import Lethe.MembershipRuns
import Lethe.MembershipInterleaving
import Lethe.EpochWatcher
import Lethe.PendingLoads
import Lethe.PresenceMarker
import Lethe.InsertInterleaving
import Lethe.Rejoin
import Lethe.Library.DigestChain
import Lethe.PrefixHashes
import Lethe.StoreRuns
import Lethe.SingleCopy
import Lethe.ResidentReads
import Lethe.InsertCounts
import Lethe.ReplicationCascade
import Lethe.StreamBlocks
import Lethe.SecondChance
import Lethe.VictimSteps
import Lethe.EvictionGossip
import Lethe.Library.Ledger
import Lethe.VictimBytes
import Lethe.EvictionTarget
import Lethe.SsdSoundness
import Lethe.SsdRebuild
import Lethe.Demotion
import Lethe.BatchedLookup
import Lethe.ReplicationQueue
import Lethe.RoundTurns
import Lethe.RouteWalk
import Lethe.HashRingLoop
import Lethe.SilenceRule
import Lethe.StoreBookkeeping
import Lethe.RdmaMessage
import Lethe.RdmaSendRing
import Lethe.PushVerdict
import Lethe.ClientLookup
import Lethe.ConnectorTokens
import Lethe.Library.InsertionDict
import Lethe.LayerLoads
import Lethe.EpochPoll
import Lethe.Library.SlotPool
import Lethe.SsdSlots
import Lethe.Blake3
import Lethe.Library.HashTree
import Lethe.Blake3Chunk
import Lethe.Blake3Tree
import Lethe.Blake3Hasher
import Lethe.Blake3Output
import Lethe.Library.WorkerPool
import Lethe.ReplicationWorkers
import Lethe.RdmaReceiveRing
import Lethe.RdmaLink
import Lethe.RdmaDelivery
