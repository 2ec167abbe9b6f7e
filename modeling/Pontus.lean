import Pontus.Proxy.Proofs.PipelinedUnits
import Pontus.Proxy.Proofs.FlushBatch
import Pontus.Proxy.Proofs.SelfContained
import Pontus.Proxy.Proofs.Isolation
import Pontus.Proxy.Proofs.Checkout
import Pontus.Proxy.Proofs.Collapsing
import Pontus.Proxy.Proofs.Cleanliness
import Pontus.Proxy.Proofs.HeaderProbe
import Pontus.Protocol.Proofs.SetReplay
import Pontus.Proxy.Proofs.FailedStatements
import Pontus.Proxy.Proofs.Capturing
import Pontus.Proxy.Proofs.Eviction
import Pontus.Proxy.Proofs.StatementReplay
import Pontus.Proxy.Proofs.Stored
import Pontus.Pool.Proofs.PoolSet
import Pontus.Proxy.Proofs.AsyncWatcher
import Pontus.Proxy.Proofs.CopyIn
import Pontus.Proxy.Proofs.Holding
import Pontus.Proxy.Proofs.Positions
import Pontus.Proxy.Proofs.Started
import Pontus.Proxy.Proofs.StartupParams
import Pontus.Proxy.Proofs.Cancelling
import Pontus.Management.Proofs.AllOrNothing
import Pontus.Management.Proofs.DatabaseCeilings
import Pontus.Management.Proofs.Restart
import Pontus.Orchestration.Proofs.Authorised
import Pontus.Orchestration.Proofs.RejoinBudget
import Pontus.Orchestration.Proofs.SeenNotStreaming
import Pontus.Orchestration.Proofs.SplitBrain
import Pontus.Agent.Proofs.Rebuild
import Pontus.Cache.Proofs.Exact
import Pontus.Consensus.Proofs.Snapshot
import Pontus.Health.Proofs.CircuitBreaker
import Pontus.Orchestration.Proofs.OneOwner
import Pontus.Pool.Proofs.Draining
import Pontus.Pool.Proofs.Resize
import Pontus.Proxy.Proofs.FailoverPause
import Pontus.Protocol.Proofs.AffectedTables
import Pontus.Proxy.Proofs.TransactionPins
import Pontus.Proxy.Proofs.RequestClasses
import Pontus.Credentials.Proofs.Scram
import Pontus.Proxy.Proofs.MySQLSessions
import Pontus.Proxy.Proofs.ConsoleGrammar
import Pontus.Protocol.Proofs.ScannerCuts
import Pontus.Pool.Proofs.Reattach
import Pontus.Orchestration.Proofs.BestReplica
import Pontus.Proxy.Proofs.ResponsePaths
import Pontus.Protocol.Proofs.MySQLStatus
import Pontus.Protocol.Proofs.TokenSpans
import Pontus.Protocol.Proofs.LeadingNoise
import Pontus.Agent.Proofs.Conninfo
import Pontus.Protocol.Proofs.Negotiation
