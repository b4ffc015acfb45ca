import QuestRouter.Cluster.Live
import QuestRouter.Cluster.Reads
import QuestRouter.Cluster.Scans
import QuestRouter.Federated.AverageScan
import QuestRouter.Federated.BrokenClients
import QuestRouter.Federated.FreshAnswer
import QuestRouter.Federated.FullScan
import QuestRouter.Federated.RowLimit
import QuestRouter.Federated.ScanHealth
import QuestRouter.Federated.TypedBatches
import QuestRouter.Ingest.Delivered
import QuestRouter.Ingest.Identity
import QuestRouter.Ingest.ObjectKeys
import QuestRouter.Ingest.OneLine
import QuestRouter.Ingest.Pipeline
import QuestRouter.Metadata.HealthChecks
import QuestRouter.Metadata.KeyedRouting
import QuestRouter.Pool.Leases
import QuestRouter.Pool.ShardIds
import QuestRouter.Protocol.BoundKeys
import QuestRouter.Protocol.IlpBounds
import QuestRouter.Protocol.IlpFailure
import QuestRouter.Protocol.IlpStreams
import QuestRouter.Protocol.Locality
import QuestRouter.Protocol.NamedTables
import QuestRouter.Protocol.ParamOrder
import QuestRouter.Protocol.PgRelay
import QuestRouter.Protocol.Phases
import QuestRouter.Protocol.ReadOnly
import QuestRouter.Routing.DialectWords
import QuestRouter.Routing.Growth
import QuestRouter.Routing.Offsets
import QuestRouter.Stream.Bridges
import QuestRouter.Stream.ClientSocket
import QuestRouter.Stream.Delivery
import QuestRouter.Stream.Disconnect
import QuestRouter.Stream.Faithful
import QuestRouter.Stream.HubTasks
import QuestRouter.Stream.Lag
import QuestRouter.Stream.Readers
import QuestRouter.Stream.Replay
import QuestRouter.Stream.SymbolTicks
import QuestRouter.Stream.Wakeups
