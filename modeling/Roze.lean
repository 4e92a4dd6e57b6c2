import Roze.Library.Execution
import Roze.Library.KeyedMap
import Roze.Library.MachineInteger
import Roze.Transaction.Outbox
import Roze.Transaction.OutboxStore
import Roze.Transaction.OutboxRelay
import Roze.Transaction.Inbox
import Roze.Transaction.Saga
import Roze.TransactionSql.Codec
import Roze.TransactionSql.Store
import Roze.Library.Clock
import Roze.Resilience.Breaker
import Roze.TransactionSql.Relay
import Roze.Resilience.StaleOutcomes
import Roze.Library.RollingWindow
import Roze.Resilience.Shedding
import Roze.Library.ProcessPool
import Roze.Resilience.SheddingWindow
import Roze.Resilience.Governance
import Roze.Resilience.SheddingSlots
import Roze.Library.FramedFields
import Roze.Library.Text
import Roze.Mq.GovernedDelivery
import Roze.RateLimiting.Key
import Roze.Library.TokenBucket
import Roze.RateLimiting.MemoryStore
import Roze.Db.ShardRouter
import Roze.RateLimiting.RedisStore
import Roze.Http.ClientIp
import Roze.Http.RouteGroup
import Roze.Http.Router
import Roze.Http.AllowedMethods
import Roze.Mq.InMemoryBroker
import Roze.Mq.DeliveryCourse
import Roze.Mq.AttemptBound
import Roze.Config.Governance
import Roze.Admission.Guard
import Roze.Admission.Permits
import Roze.Context.Propagation
import Roze.Context.RoundTrip
import Roze.Deadline.Hops
import Roze.Deadline.Outbound
import Roze.Admission.Ledger
import Roze.Context.RetryBudget
import Roze.Gateway.Cancellation
import Roze.Idempotency.Cell
import Roze.Idempotency.Equivalence
import Roze.Idempotency.Leases
import Roze.Idempotency.Replay
import Roze.Rpc.BudgetDelegation
import Roze.Rpc.RetryLoop
import Roze.Ai.Checkpoints
import Roze.Ai.Safety
import Roze.Gateway.Routing
import Roze.Resilience.OperationKeys
import Roze.Rpc.MemoryRegistry
import Roze.Singleflight.Group
import Roze.Transaction.BrokerRelay
import Roze.Errors.RozeError
import Roze.Library.JsonReader
import Roze.Rpc.ErrorStatus
import Roze.Rpc.EtcdWatch
import Roze.Cache.Loading
import Roze.Config.EtcdWatch
import Roze.Config.WatchLoop
import Roze.Eventbus.Envelope
import Roze.Kafka.Commits
import Roze.Migration.Lifecycle
import Roze.Nats.Messages
import Roze.Nats.Retry
import Roze.Permission.AccessRule
import Roze.Query.Composer
import Roze.Config.ReloadHistory
import Roze.Gateway.Health
import Roze.Mq.DeadLetterQuery
import Roze.Resilience.RetryBudget
import Roze.Cache.ModelKey
import Roze.Rpc.Balance
import Roze.Rpc.EtcdKeys
import Roze.Health.Readiness
import Roze.Ai.TextSplitter
import Roze.Calendar.CivilDates
