import NestDdd.Runs.Machine
import NestDdd.Runs.RollingWindow
import NestDdd.Runs.History
import NestDdd.Runs.Async
import NestDdd.Runs.Slot
import NestDdd.Runs.ReadCommitted
import NestDdd.Runs.Semaphore
import NestDdd.Shared.JsValue
import NestDdd.Shared.Json
import NestDdd.Shared.Utf8
import NestDdd.Idempotency.Interceptor
import NestDdd.Idempotency.InMemoryStore
import NestDdd.Idempotency.System
import NestDdd.Idempotency.OracleStore
import NestDdd.Idempotency.Exclusion
import NestDdd.Idempotency.Supersede
import NestDdd.Database.OracleClient
import NestDdd.Database.PoolManager
import NestDdd.Database.ContextUser
import NestDdd.Database.ErrorMapping
import NestDdd.Database.UnitOfWork
import NestDdd.Database.Pool
import NestDdd.Database.PoolCalls
import NestDdd.Database.ActiveTransactions
import NestDdd.Database.PingAll
import NestDdd.Http.CircuitBreaker
import NestDdd.Http.OpenCircuit
import NestDdd.Http.FetchHttpClient
import NestDdd.Http.RetryLoop
import NestDdd.Http.Headers
import NestDdd.Cluster.Primary
import NestDdd.Cluster.Leader
import NestDdd.Cluster.Shutdown
import NestDdd.Lifecycle.GracefulShutdown
import NestDdd.Interface.ExceptionFilter
import NestDdd.Interface.ResponseFormatter
import NestDdd.Interface.Failures
import NestDdd.Idempotency.OracleCalls
import NestDdd.Database.Health
import NestDdd.Idempotency.Replay
import NestDdd.Idempotency.Adapters
import NestDdd.Idempotency.Fingerprint
import NestDdd.Interface.CorrelationId
import NestDdd.Interface.RequestIds
import NestDdd.Legacy.MatchesPrefix
import NestDdd.Legacy.Forwarder
import NestDdd.Events.Publisher
import NestDdd.Shared.JsString
import NestDdd.Shared.Pattern
import NestDdd.Shared.TraceContext
import NestDdd.Shared.Binary64
import NestDdd.Shared.Reader
import NestDdd.Shared.Numeral
import NestDdd.Shared.Utf16
import NestDdd.Shared.Stringify
import NestDdd.Shared.JsonParse
import NestDdd.Shared.JsonText
import NestDdd.Shared.Base64url
import NestDdd.Shared.Cursor
import NestDdd.Shared.CursorTampering
import NestDdd.Database.Semaphore
import NestDdd.Interface.JobRunner
import NestDdd.Interface.OrderBy
import NestDdd.Domain.ValueObject
import NestDdd.Common.ErrorOrigin
import NestDdd.Common.StackLines
import NestDdd.Common.WindowsPaths
import NestDdd.Common.InstallDirectory
import NestDdd.Cluster.Processes
import NestDdd.Shared.Properties
import NestDdd.Legacy.ForwardHeaders
import NestDdd.Http.TracePath
import NestDdd.Lifecycle.Drain
import NestDdd.Interface.ZodHttp
import NestDdd.Config.Schemas
import NestDdd.Config.LoadConfig
import NestDdd.Config.Accepted
import NestDdd.Config.Workers
