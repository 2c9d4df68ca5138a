import LazyAS.DecisionTree
import LazyAS.DenseStationHash
import LazyAS.TreeRoundTrip
import LazyAS.FrameDelivery
import LazyAS.ReportDelivery
import LazyAS.Runs
import LazyAS.SingleOnline
import LazyAS.AddRollback
import LazyAS.CommandConfirmation
import LazyAS.CommandRetirement
import LazyAS.CommandOrder
import LazyAS.AgentRegistry
import LazyAS.ForcedRoam
import LazyAS.TrafficSessions
import LazyAS.AgentCounters
import LazyAS.ContainerIndex
import LazyAS.RedisMirror
import LazyAS.CommandCodec
import LazyAS.CommandIds
import LazyAS.ReportSplitting
import LazyAS.Subscriptions
import LazyAS.DepartedStations
import LazyAS.Worker
import LazyAS.TreeDecision
import LazyAS.DecisionRuns
import LazyAS.LazyDecision
import LazyAS.AssignedSsid
import LazyAS.ApSender
import LazyAS.ReportCodec
import LazyAS.ReceiveCursor
import LazyAS.CommandHandlers
import LazyAS.JoinOutcome
import LazyAS.DeleteOutcome
import LazyAS.SubscriptionTables
import LazyAS.ScanReadings
import LazyAS.ScanSelection
import LazyAS.AccessControlMultiApp
import LazyAS.MultiSelection
import LazyAS.BandVaps
import LazyAS.StepTouches
import LazyAS.AgingVisits
import LazyAS.AgingStrikes
import LazyAS.VirtualAging
import LazyAS.QueuedCommands
import LazyAS.QueueRaces
import LazyAS.PruningPairs
import LazyAS.SessionKey
import LazyAS.RecordHandoff
import LazyAS.TrainingSplit
import LazyAS.ScanExpiry
import LazyAS.HandoffCleanup
import LazyAS.RoamIntervals
import LazyAS.RoamScores
import LazyAS.AgingHash
import LazyAS.AgingWalk
import LazyAS.AgingInsert
import LazyAS.AgingTable
import LazyAS.AgingResize
import LazyAS.AgingSessions
import LazyAS.AgingRemove
import LazyAS.StationBaselines
import LazyAS.ProbeThrottle
import LazyAS.RssiWindow
import LazyAS.TreeLevels
import LazyAS.TreeStatistics
import LazyAS.Monitor
import LazyAS.DataReceiver
import LazyAS.ReceiverWaits
import LazyAS.ReceiverSockets
import LazyAS.RecordStream
import LazyAS.ReceiverRecords
import LazyAS.CollisionCount
import LazyAS.CircularBuffer
import LazyAS.ClosableQueue
import LazyAS.DSQueue
import LazyAS.DSQueueRuns
import LazyAS.CollectorPipeline
import LazyAS.WordMixing
import LazyAS.MurmurHash
import LazyAS.TableLedger
import LazyAS.TableMemory
import LazyAS.HashSpread
import LazyAS.StationFeed
import LazyAS.TextInput
import LazyAS.FlowDump
import LazyAS.ListStatistics
import LazyAS.DelayBins
import LazyAS.OfflinePipeline
import LazyAS.MasterAddress
import LazyAS.UplinkThreads
import LazyAS.UplinkIntroduction
import LazyAS.HeartbeatWatchdog
import LazyAS.MultiProbes
import LazyAS.ProbeGate
import LazyAS.ProbeSighting
import LazyAS.SharedQueue
