import PaymentSystem.Patterns.Pipeline
import PaymentSystem.Adapters.InMemory
import PaymentSystem.Infra.IdGenerator
import PaymentSystem.Theory.Runs
import PaymentSystem.Service.Machine
import PaymentSystem.Service.Locals
import PaymentSystem.Service.Keys
import PaymentSystem.Service.Files
import PaymentSystem.Service.Solvency
import PaymentSystem.Service.Books
import PaymentSystem.Service.Solo
import PaymentSystem.Service.Intents
import PaymentSystem.Service.Locks
import PaymentSystem.Theory.Transfers
import PaymentSystem.Service.Linearizability
import PaymentSystem.Service.Exits
import PaymentSystem.Service.Conservation
import PaymentSystem.Service.Failures
import PaymentSystem.Service.Retries
import PaymentSystem.Theory.Laps
import PaymentSystem.Service.Compensation
import PaymentSystem.Adapters.Crash
import PaymentSystem.Adapters.Ledger
import PaymentSystem.Service.Progress
import PaymentSystem.Service.Sequence
import PaymentSystem.Service.Spending
import PaymentSystem.Infra.BlockingQueue
import PaymentSystem.Infra.QueueCalls
import PaymentSystem.Infra.Wakeups
import PaymentSystem.Infra.ThreadPool
import PaymentSystem.Infra.Shutdown
import PaymentSystem.Adapters.Reopening
import PaymentSystem.Service.Durable
import PaymentSystem.Service.Restarts
import PaymentSystem.Service.Forgery
import PaymentSystem.Common.Display
import PaymentSystem.Adapters.Loading
import PaymentSystem.Service.DecisionTable
import PaymentSystem.Service.Payloads
import PaymentSystem.Service.Commuting
import PaymentSystem.Infra.Draining
import PaymentSystem.Infra.Jobs
import PaymentSystem.Service.Finishing
import PaymentSystem.Service.Pooled
import PaymentSystem.Adapters.EventPublisher
import PaymentSystem.Service.Publishing
import PaymentSystem.Service.Withdrawals
import PaymentSystem.Service.Lifecycle
import PaymentSystem.Service.Ordering
import PaymentSystem.Service.Audit
import PaymentSystem.Service.Wiring
import PaymentSystem.Adapters.Substitution
import PaymentSystem.Service.Delivery
import PaymentSystem.Service.Recovery
import PaymentSystem.Infra.OneWorker
import PaymentSystem.Service.OneByOne
import PaymentSystem.Infra.Overtaking
import PaymentSystem.Service.Gateway
import PaymentSystem.Service.Isolation
