/-
# Network.Model -- the orchestrator and the shards as one system

A `Cluster` is the orchestrator's service with the servers of all shards.  An `Action` is one
call on one of them: a client's request, a turn of the simulation worker, a tick of a block
producer, or a message that arrives.  Messages carry what the sender has published: a delivered
block is a block of the orchestrator's chain (with the order in which the receiver visits its
results), a report is a block of the shard.  They may be lost, repeated and reordered, since an
action may happen or not, at any time, any number of times.

The virtual machines lie outside (`Engines`).  A shard that restarts loses its chain and
recovers from the orchestrator; some of its fetches may fail.
-/
import CrossShard.Orchestrator.Service
import CrossShard.Shard.Bystander

namespace CrossShard.Network

set_option autoImplicit false

open CrossShard.Library CrossShard.Protocol CrossShard.Shard CrossShard.Orchestrator

/-- The code outside the repository that both sides run. -/
structure Engines where
  vm : VM
  simulateCall : Server.SimulateCall
  evmCall : EvmCall

structure Cluster where
  service : Service
  shards : Int → Server

inductive Action where
  | submit (uuid : TxID) (req : CrossShardTx)
  | call (uuid : TxID) (req : CrossShardTx)
  | simulate (W : World)
  | produce
  | deliver (shard : Int) (block : OrchestratorShardBlock)
  | report (shard : Int) (height : Nat) (votes : AList fun _ : TxID => Bool)
  | request (shard : Int) (txID : TxID) (req : Server.TxSubmitRequest)
  | shardProduce (shard : Int) (commit : Option Hash)
  | restart (shard : Int) (evm : EVMState) (reachable : Bool) (failing : List Nat)

/-- The same block, up to the order in which its results are visited. -/
def SameBlock (block block' : OrchestratorShardBlock) : Prop :=
  block.height = block'.height ∧ block.tpcResult.entries.Perm block'.tpcResult.entries ∧
    block.ctToOrder = block'.ctToOrder

instance (block block' : OrchestratorShardBlock) : Decidable (SameBlock block block') :=
  inferInstanceAs (Decidable (_ ∧ _ ∧ _))

/-- `GetBlock`. -/
def blockAt (chain : OrchestratorChain) (height : Nat) : Option OrchestratorShardBlock :=
  if chain.height < height then none else chain.blocks[height]?

/-- What a recovering shard is told. -/
def recoveryView (chain : OrchestratorChain) (reachable : Bool) (failing : List Nat) :
    Server.OrchestratorView where
  latest := if reachable then some chain.height else none
  fetch height :=
    if height ∈ failing then .failed
    else match blockAt chain height with
      | none => .notFound
      | some block => .block block

namespace Cluster

def start (numShards : Nat) (evm : Int → EVMState) : Cluster :=
  ⟨Service.newService numShards, fun shard => Server.fresh shard (evm shard)⟩

def setShard (net : Cluster) (shard : Int) (server : Server) : Cluster :=
  { net with shards := Function.update net.shards shard server }

/-- The cluster after one action, unless the action cannot happen or ends in a panic. -/
def step (E : Engines) (net : Cluster) : Action → Option Cluster
  | .submit uuid req => some { net with service := (net.service.handleSubmit uuid req).2 }
  | .call uuid req => some { net with service := (net.service.handleCall uuid req).2 }
  | .simulate W => (net.service.simulateNext W E.evmCall).map fun s => { net with service := s }
  | .produce => some { net with service := net.service.produceBlock.2 }
  | .deliver shard block =>
      if net.service.managed shard ∧ ∃ sent ∈ net.service.chain.blocks, SameBlock sent block then
        some (net.setShard shard ((net.shards shard).handleOrchestratorShardBlock block).2)
      else none
  | .report shard height votes =>
      match (net.shards shard).chain.blocks[height]? with
      | none => none
      | some block =>
          if votes.toFinmap = block.tpcPrepare.toFinmap then
            some { net with service := net.service.handleStateShardBlock block.shardID votes }
          else none
  | .request shard txID req =>
      some (net.setShard shard ((net.shards shard).handleTxSubmit E.simulateCall txID req).2)
  | .shardProduce shard commit =>
      let server := net.shards shard
      (server.chain.produceBlock E.vm server.evmState commit).map fun p =>
        net.setShard shard { server with chain := p.chain, evmState := p.evm }
  | .restart shard evm reachable failing =>
      some (net.setShard shard
        (Server.newServer shard evm (recoveryView net.service.chain reachable failing)))

/-! ## What an action can do -/

/-- The outcomes of an action. -/
inductive Taken (E : Engines) (net : Cluster) : Action → Cluster → Prop
  | served (a : Action) (service : Service) (ops : List Op)
      (chain : service.chain = net.service.chain.after ops)
      (blocks : Op.produceBlock ∈ ops → a = .produce ∧ ops = [.produceBlock]) :
      Taken E net a { net with service := service }
  | delivered (shard : Int) (block sent : OrchestratorShardBlock)
      (listed : sent ∈ net.service.chain.blocks) (same : SameBlock sent block) :
      Taken E net (.deliver shard block)
        (net.setShard shard ((net.shards shard).handleOrchestratorShardBlock block).2)
  | requested (shard : Int) (txID : TxID) (req : Server.TxSubmitRequest) :
      Taken E net (.request shard txID req)
        (net.setShard shard ((net.shards shard).handleTxSubmit E.simulateCall txID req).2)
  | produced (shard : Int) (commit : Option Hash) (p : Produced)
      (ran : (net.shards shard).chain.produceBlock E.vm (net.shards shard).evmState commit = some p) :
      Taken E net (.shardProduce shard commit)
        (net.setShard shard { net.shards shard with chain := p.chain, evmState := p.evm })
  | restarted (shard : Int) (evm : EVMState) (reachable : Bool) (failing : List Nat) :
      Taken E net (.restart shard evm reachable failing)
        (net.setShard shard
          (Server.newServer shard evm (recoveryView net.service.chain reachable failing)))

theorem taken_of_step {E : Engines} {net net' : Cluster} {a : Action}
    (stepped : net.step E a = some net') : Taken E net a net' := by
  cases a with
  | submit uuid req =>
      cases stepped
      rcases net.service.handleSubmit_cases uuid req with same | ⟨-, panics | queued⟩
      · rw [same]
        exact .served _ _ [] rfl nofun
      · rw [panics]
        exact .served _ _ [] rfl nofun
      · rw [queued]
        exact .served _ _ [.addTransaction _] rfl (by simp)
  | call uuid req =>
      cases stepped
      exact .served _ _ [] (net.service.chain_handleCall uuid req) nofun
  | simulate W =>
      obtain ⟨s, ran, rfl⟩ := Option.map_eq_some_iff.1 stepped
      obtain ⟨tx, rest, -, chain⟩ := Service.chain_simulateNext ran
      exact .served _ _ [.addTransaction _] chain (by simp)
  | produce =>
      cases stepped
      exact .served _ _ [.produceBlock] net.service.chain_produceBlock fun _ => ⟨rfl, rfl⟩
  | deliver shard block =>
      simp only [step] at stepped
      split at stepped
      · rename_i sent
        cases stepped
        obtain ⟨-, b, listed, same⟩ := sent
        exact .delivered shard block b listed same
      · cases stepped
  | report shard height votes =>
      simp only [step] at stepped
      split at stepped
      · cases stepped
      · rename_i block found
        split at stepped
        · cases stepped
          apply Taken.served _ _ _ (net.service.chain_handleStateShardBlock block.shardID votes)
          simp
        · cases stepped
  | request shard txID req =>
      cases stepped
      exact .requested shard txID req
  | shardProduce shard commit =>
      obtain ⟨p, ran, rfl⟩ := Option.map_eq_some_iff.1 stepped
      exact .produced shard commit p ran
  | restart shard evm reachable failing =>
      cases stepped
      exact .restarted shard evm reachable failing

end Cluster

end CrossShard.Network
