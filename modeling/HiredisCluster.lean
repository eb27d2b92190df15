import HiredisCluster.Cxx.Computation
import HiredisCluster.Cxx.Program
import HiredisCluster.Cxx.Run
import HiredisCluster.Cxx.OrderedMap
import HiredisCluster.Cxx.ByteString
import HiredisCluster.Cxx.Ledger
import HiredisCluster.Cxx.Crc
import HiredisCluster.Cxx.Odometer
import HiredisCluster.ClusterException
import HiredisCluster.Hiredis
import HiredisCluster.HiredisProcess
import HiredisCluster.RedirectionSyntax
import HiredisCluster.SlotHash
import HiredisCluster.KeySlots
import HiredisCluster.SlotSpread
import HiredisCluster.World
import HiredisCluster.Container
import HiredisCluster.Cluster
import HiredisCluster.Routing
import HiredisCluster.AsyncHiredisCommand
import HiredisCluster.AsyncEffects
import HiredisCluster.AsyncCallbacks
import HiredisCluster.AsyncRun
import HiredisCluster.AsyncFrame
import HiredisCluster.UserReplies
import HiredisCluster.Lifecycle
import HiredisCluster.AskingAdjacency
import HiredisCluster.AtMostOnce
import HiredisCluster.ErrorHandlers
import HiredisCluster.RedirectionTargets
import HiredisCluster.SharedConnections
import HiredisCluster.DeadConnections
import HiredisCluster.HiredisCommand
import HiredisCluster.SyncCourse
import HiredisCluster.SyncRedirections
import HiredisCluster.MovedAnnouncement
import HiredisCluster.Dialogue
import HiredisCluster.SyncDialogue
import HiredisCluster.AsyncDialogue
import HiredisCluster.ClientAgreement
import HiredisCluster.ConnectionBalance
import HiredisCluster.EscapingExceptions
import HiredisCluster.ContainerHandles
import HiredisCluster.ClusterTeardown
import HiredisCluster.ThreadedPool
import HiredisCluster.PoolConservation
import HiredisCluster.ThreadedClients
import HiredisCluster.ExclusiveConnections
import HiredisCluster.PoolStock
import HiredisCluster.PoolProgress
import HiredisCluster.PoolDisconnect
import HiredisCluster.ClusterDownDetection
import HiredisCluster.SlotsReply
import HiredisCluster.OverlappingRanges
import HiredisCluster.ThreadedRouting
import HiredisCluster.CreateCluster
import HiredisCluster.SyncFailures
import HiredisCluster.ReplyOwnership
import HiredisCluster.FailedCommands
import HiredisCluster.LostRequests
import HiredisCluster.RedirectCache
import HiredisCluster.Resharding
import HiredisCluster.AsyncResharding
import HiredisCluster.TestOneSlot
import HiredisCluster.AskingTest
import HiredisCluster.BoostAsioAdapter
import HiredisCluster.SpuriousReadiness
