import CrossShard.Library.FiniteMap
import CrossShard.Library.Priority
import CrossShard.Library.Run
import CrossShard.Library.Revisions
import CrossShard.Library.Numeral
import CrossShard.Library.Escrow
import CrossShard.Protocol.Types
import CrossShard.Protocol.Codec
import CrossShard.Protocol.Merkle
import CrossShard.Shard.Evm
import CrossShard.Shard.Chain
import CrossShard.Shard.BlockBuffer
import CrossShard.Shard.BufferPrefix
import CrossShard.Shard.Server
import CrossShard.Shard.Tables
import CrossShard.Shard.Machine
import CrossShard.Shard.Frame
import CrossShard.Shard.Provenance
import CrossShard.Shard.FundLocks
import CrossShard.Shard.LockSpec
import CrossShard.Shard.LockOutcome
import CrossShard.Shard.LockLifetime
import CrossShard.Shard.Isolation
import CrossShard.Shard.Inclusion
import CrossShard.Shard.Intake
import CrossShard.Shard.ExactlyOnce
import CrossShard.Shard.LockOrder
import CrossShard.Shard.Effects
import CrossShard.Shard.ResultOrder
import CrossShard.Shard.BlockReplay
import CrossShard.Shard.CommitFailure
import CrossShard.Shard.SlotTables
import CrossShard.Shard.FundIndex
import CrossShard.Shard.DirectRequests
import CrossShard.Shard.Replay
import CrossShard.Shard.Bystander
import CrossShard.Shard.Recovery
import CrossShard.Shard.Accounting
import CrossShard.Shard.Concurrency
import CrossShard.Shard.Tracking
import CrossShard.Shard.SubCalls
import CrossShard.Shard.Submission
import CrossShard.Shard.Routing
import CrossShard.Orchestrator.Chain
import CrossShard.Orchestrator.Lifecycle
import CrossShard.Orchestrator.VoteOrder
import CrossShard.Orchestrator.Outsiders
import CrossShard.Orchestrator.Deadline
import CrossShard.Orchestrator.StateDB
import CrossShard.Orchestrator.ReadSets
import CrossShard.Orchestrator.LazyFetch
import CrossShard.Orchestrator.Flows
import CrossShard.Orchestrator.Simulator
import CrossShard.Orchestrator.Service
import CrossShard.Orchestrator.Resubmission
import CrossShard.Orchestrator.StatusRace
import CrossShard.Orchestrator.AccessLists
import CrossShard.Orchestrator.Reverts
import CrossShard.Orchestrator.FetchErrors
import CrossShard.Orchestrator.MovingShards
import CrossShard.Orchestrator.Shutdown
import CrossShard.Orchestrator.ProofCheck
import CrossShard.Network.RwSetEffect
import CrossShard.Network.Model
import CrossShard.Network.Histories
import CrossShard.Network.Broadcast
import CrossShard.Network.Atomicity
import CrossShard.Network.Preparation
import CrossShard.Network.Serializability
import CrossShard.Network.Orphans
import CrossShard.Network.Conservation
import CrossShard.Network.Optimism
import CrossShard.Network.FailedSimulation
import CrossShard.Network.Credits
import CrossShard.Network.Voters
import CrossShard.Network.Settlement
import CrossShard.Network.StorageProofs
