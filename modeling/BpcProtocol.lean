import BpcProtocol.Lib.Fallible
import BpcProtocol.Lib.Relational
import BpcProtocol.Js.Text
import BpcProtocol.Ha.Errors
import BpcProtocol.Ha.Signing
import BpcProtocol.Ha.Canonical
import BpcProtocol.Ha.RedisFenceRecord
import BpcProtocol.Ha.Cutover
import BpcProtocol.Ha.CutoverService
import BpcProtocol.Ha.CutoverChain
import BpcProtocol.Ha.SourceFence
import BpcProtocol.Ha.SplitBrain
import BpcProtocol.Js.Value
import BpcProtocol.Ha.SourceLease
import BpcProtocol.Ha.SourceLeaseChain
import BpcProtocol.Lib.Chain
import BpcProtocol.Lib.Async
import BpcProtocol.Js.Number
import BpcProtocol.Js.Json
import BpcProtocol.Ha.CanonicalJson
import BpcProtocol.Js.Coerce
import BpcProtocol.Ha.RedisFence
import BpcProtocol.Ha.RedisQuorum
import BpcProtocol.Nonce.Governed
import BpcProtocol.Nonce.GovernedStore
import BpcProtocol.Nonce.Continuity
import BpcProtocol.Js.Utf8
import BpcProtocol.Nonce.ContinuityGuard
import BpcProtocol.Ha.CanonicalData
import BpcProtocol.Ha.Digests
import BpcProtocol.Ha.Snapshot
import BpcProtocol.Ha.Artifacts
import BpcProtocol.Js.Arithmetic
import BpcProtocol.Lib.EarlyReturn
import BpcProtocol.Lib.OrderedMap
import BpcProtocol.Pair.Types
import BpcProtocol.Pair.MemoryStore
import BpcProtocol.Js.Base64
import BpcProtocol.Pair.Registry
import BpcProtocol.Pair.Rotation
import BpcProtocol.Pair.Middleware
import BpcProtocol.Pair.Service
import BpcProtocol.Pair.Effects
import BpcProtocol.Pair.Operations
import BpcProtocol.Pair.Lifecycle
import BpcProtocol.Pair.Lineage
import BpcProtocol.Pair.Usage
import BpcProtocol.Pair.Capacity
import BpcProtocol.Durable.Outbox
import BpcProtocol.Durable.PairRecord
import BpcProtocol.Durable.PairRoundTrip
import BpcProtocol.Durable.Sealing
import BpcProtocol.Durable.PairTables
import BpcProtocol.Replication.Queue
import BpcProtocol.Pair.AuthorizationKeys
import BpcProtocol.Lib.Contracts
import BpcProtocol.Pair.FailsClosed
import BpcProtocol.Js.JsonImage
import BpcProtocol.Replication.Receiver
import BpcProtocol.Lib.Replay
import BpcProtocol.Replication.Records
import BpcProtocol.Replication.Mirror
import BpcProtocol.Replication.Prefix
import BpcProtocol.Replication.Convergence
import BpcProtocol.Js.Ascii
import BpcProtocol.Lib.Separated
import BpcProtocol.Wire.Core
import BpcProtocol.Wire.Encoding
import BpcProtocol.Wire.Client
import BpcProtocol.Wire.Python
import BpcProtocol.Wire.Received
import BpcProtocol.Wire.Scan
import BpcProtocol.Wire.Exchange
import BpcProtocol.Wire.Received
import BpcProtocol.Wire.Agreement
import BpcProtocol.Durable.PairMutation
import BpcProtocol.Durable.PairStore
import BpcProtocol.Durable.PairReplica
import BpcProtocol.Js.DoubleText
import BpcProtocol.Durable.PairScore
import BpcProtocol.Js.Double
import BpcProtocol.Audit.Entry
import BpcProtocol.Audit.Chain
import BpcProtocol.Audit.MemoryLog
import BpcProtocol.Audit.PgLog
import BpcProtocol.Audit.Tamper
import BpcProtocol.Nonce.Checkpoint
import BpcProtocol.Nonce.Reservation
import BpcProtocol.Js.Integers
import BpcProtocol.Transport.Receiver
import BpcProtocol.Transport.ReplayNonce
import BpcProtocol.Lib.Tracking
import BpcProtocol.Postgres.Statement
import BpcProtocol.Postgres.Transactor
import BpcProtocol.Postgres.Server
import BpcProtocol.Postgres.Outcome
import BpcProtocol.Principal.Records
import BpcProtocol.Principal.Ledger
import BpcProtocol.Principal.Service
import BpcProtocol.Principal.Continuity
import BpcProtocol.Principal.Binding
import BpcProtocol.Lib.Sha256
import BpcProtocol.Principal.Acceptance
import BpcProtocol.Principal.Context
import BpcProtocol.Principal.Identity
import BpcProtocol.Js.Rounding
import BpcProtocol.Pair.Activity
import BpcProtocol.Pair.Crowd
import BpcProtocol.Pair.Score
import BpcProtocol.Pair.Allowance
import BpcProtocol.Pair.SlowDrip
import BpcProtocol.Transport.Failover
import BpcProtocol.Transport.Recovery
import BpcProtocol.Ha.CutoverSteps
import BpcProtocol.Ha.FencedRetry
import BpcProtocol.Ha.CutoverCompletion
import BpcProtocol.Durable.Promotion
import BpcProtocol.Python.Verifier
import BpcProtocol.Nonce.MemoryBackend
import BpcProtocol.Python.Soundness
import BpcProtocol.Anomaly.Store
import BpcProtocol.Files.LocalFile
import BpcProtocol.Files.Interchange
import BpcProtocol.Limits.Memory
import BpcProtocol.Limits.Redis
import BpcProtocol.Replication.Order
import BpcProtocol.Lib.History
import BpcProtocol.Pair.Conduct
import BpcProtocol.Pair.Frame
import BpcProtocol.Anomaly.Counts
import BpcProtocol.Anomaly.Shadow
import BpcProtocol.Anomaly.Windows
import BpcProtocol.Js.JsonParsed
import BpcProtocol.Replication.Copy
import BpcProtocol.Wire.Binding
import BpcProtocol.Python.Totality
import BpcProtocol.Principal.Atomicity
import BpcProtocol.Principal.Rotations
import BpcProtocol.Principal.Sessions
import BpcProtocol.Durable.PairReturned
import BpcProtocol.Durable.Transplant
import BpcProtocol.Nonce.WitnessFailures
import BpcProtocol.Durable.BoundScope
import BpcProtocol.Durable.ScopeOrder
import BpcProtocol.Postgres.Custody
import BpcProtocol.Postgres.Release
import BpcProtocol.Js.Decoding
import BpcProtocol.Lib.Schedule
import BpcProtocol.Transport.Acknowledgement
import BpcProtocol.Transport.AttemptBound
import BpcProtocol.Durable.PairText
import BpcProtocol.Durable.ScoreRendering
import BpcProtocol.Durable.ScoreSurvival
import BpcProtocol.Js.Window
import BpcProtocol.Pair.Authorized
import BpcProtocol.Pair.NoReplay
import BpcProtocol.Pair.Linearization
import BpcProtocol.Pair.NonAtomic
import BpcProtocol.Durable.Decisions
import BpcProtocol.Postgres.Lexical
import BpcProtocol.Postgres.Guard
import BpcProtocol.Durable.Publisher
import BpcProtocol.Durable.OutboxHistory
import BpcProtocol.Durable.ReceiverCheckpoint
import BpcProtocol.Durable.ExactlyOnce
import BpcProtocol.Durable.SnapshotImport
import BpcProtocol.Durable.SnapshotRoundTrip
import BpcProtocol.Durable.PromotedSource
import BpcProtocol.Principal.AgentCache
import BpcProtocol.Principal.AgentCacheRuns
