/-
# Network.Optimism -- a commit confirms its simulation

A call across shards is simulated without any lock.  The fetches come from different moments, and
the shards go on while it is simulated, ordered and voted on.  Only the read set goes into the vote.

`commit_confirms_simulation` says what this is worth: when all involved shards are still to
process the commit, the same simulation over the storage of that moment, with the same accounts,
takes the same course and ends in the same transaction.  So what the shards write is what the call
writes if it executes at once, at the moment of the decision.

There are two conditions.  No fetch of the simulation contradicts another one; and every slot that
it accesses is accessed outside of reverted frames too, since otherwise its read set is not
complete.  Both hold if the call never reverts.

* `execute_congr`: a storage with the values of the read sets gives the same execution.
* `Regular.confirms`: the statement for shards that stand still during the simulation.
* `commit_confirms_simulation`: the statement for shards that move.
-/
import CrossShard.Network.Serializability
import CrossShard.Orchestrator.MovingShards

namespace CrossShard.Orchestrator

set_option autoImplicit false

open CrossShard.Library CrossShard.Protocol

section Execution

variable {W : World} {call : EvmCall} {job : CrossShardTx}

theorem covers_execute (W : World) (call : EvmCall) (job : CrossShardTx) :
    Covers W ((execute W call job).ops.foldl Frames.step ⟨[], []⟩) (execute W call job).db :=
  ((covers_start W).step (.prepare job.fromAddr 0 none [] [])).run _

/-- A storage with the values of the read sets gives the same execution. -/
theorem execute_congr {g : Int → Address → Hash → Except String Hash}
    (agrees : AgreesOnReadSets W (W.withStorage g) (execute W call job).db)
    (survives : ∀ key ∈ accessed (execute W call job).ops,
      key ∈ surviving (execute W call job).ops) :
    execute (W.withStorage g) call job = execute W call job := by
  refine run_congr _ ((covers_start W).step (.prepare job.fromAddr 0 none [] [])) fun key mem => ?_
  have finish := (covers_execute W call job).now
  obtain ⟨value, known⟩ :=
    Option.isSome_iff_exists.1 ((finish.kept key.1 key.2).1 (survives key mem))
  rw [agreesOnReadSets_iff.1 agrees _ _ _ known, finish.genuine _ _ _ known]

theorem runSimulation_congr {g : Int → Address → Hash → Except String Hash}
    (same : execute (W.withStorage g) call job = execute W call job) :
    runSimulation (W.withStorage g) call job = runSimulation W call job := by
  unfold runSimulation
  rw [same]
  rfl

end Execution

end CrossShard.Orchestrator

namespace CrossShard.Network

set_option autoImplicit false

open CrossShard.Library CrossShard.Protocol CrossShard.Shard CrossShard.Orchestrator
open Chain (readItems)

/-- What every shard would answer now. -/
def storageNow (net : Cluster) (shard : Int) (addr : Address) (slot : Hash) : Except String Hash :=
  .ok ((net.shards shard).evmState.getStorageAt addr slot)

section Runs

variable {E : Engines} {numShards : Nat} {evm : Int → EVMState} {as : List Action} {net : Cluster}

theorem Regular.confirms (confined : StorageConfined E.vm) (regular : Regular E numShards evm as net)
    (reads : ∀ t ∈ net.service.chain.orders, WritesRead t) {t job : CrossShardTx} {W : World}
    (simulated : (runSimulation W E.evmCall job).1 = .onSuccess t)
    (survives : ∀ key ∈ accessed (execute W E.evmCall job).ops,
      key ∈ surviving (execute W E.evmCall job).ops)
    (member : t ∈ net.service.chain.orders) (committed : net.service.chain.Committed t.id)
    (fresh : ∀ k ∈ t.involvedShards, (net.shards k).chain.isCommitProcessed t.id = false) :
    execute (W.withStorage (storageNow net)) E.evmCall job = execute W E.evmCall job ∧
      runSimulation (W.withStorage (storageNow net)) E.evmCall job =
        runSimulation W E.evmCall job := by
  have built : t.rwSet = (execute W E.evmCall job).db.buildRwSet W := by
    rcases runSimulation_cases W E.evmCall job with ⟨err, -, failed⟩ | ⟨-, succeeded⟩
    · rw [failed] at simulated
      cases simulated
    · rw [succeeded] at simulated
      cases simulated
      rfl
  have agrees : AgreesOnReadSets W (W.withStorage (storageNow net))
      (execute W E.evmCall job).db := by
    intro rw listed item read
    have home : rw.referenceBlock.shardNum = W.addressToShard rw.address := by
      obtain ⟨addr, -, rfl⟩ := List.mem_map.1 listed
      exact (covers_execute W E.evmCall job).shardOfEntry addr
    rw [← built] at listed
    have involved : W.addressToShard rw.address ∈ t.involvedShards :=
      CrossShardTx.mem_involvedShards.2 (.inr ⟨rw, listed, home⟩)
    have held := regular.held_of_committed confined reads member committed involved
      (fresh _ involved)
    have own : rw ∈ t.localRwSet (W.addressToShard rw.address) :=
      List.mem_filter.2 ⟨listed, decide_eq_true home⟩
    exact held.values (rw.address, item)
      (List.mem_flatMap.2 ⟨rw, own, List.mem_map_of_mem read⟩)
  have same := execute_congr agrees survives
  exact ⟨same, runSimulation_congr same⟩

/-- **A commit confirms its simulation.**  Let `t` come from a successful simulation before moving
shards, whose fetches do not contradict each other and all of whose accesses survive.  Once the
orchestrator commits `t`, and while no involved shard has processed the commit, simulating the same
job with the present storage of the shards and the accounts that were fetched gives `t` again. -/
theorem commit_confirms_simulation (confined : StorageConfined E.vm)
    (regular : Regular E numShards evm as net)
    (reads : ∀ t ∈ net.service.chain.orders, WritesRead t) {t job : CrossShardTx} {W : World}
    {d : Drift} (simulated : (runSimulationMoving W d E.evmCall job).1 = .onSuccess t)
    (stable : Stable (executeMoving W d E.evmCall job).2)
    (survives : ∀ key ∈ accessed (executeMoving W d E.evmCall job).1.ops,
      key ∈ surviving (executeMoving W d E.evmCall job).1.ops)
    (member : t ∈ net.service.chain.orders) (committed : net.service.chain.Committed t.id)
    (fresh : ∀ k ∈ t.involvedShards, (net.shards k).chain.isCommitProcessed t.id = false) :
    let now := (frozen W (executeMoving W d E.evmCall job).2).withStorage (storageNow net)
    execute now E.evmCall job = (executeMoving W d E.evmCall job).1 ∧
      runSimulation now E.evmCall job = runSimulationMoving W d E.evmCall job := by
  rw [← runSimulation_frozen stable] at simulated
  rw [← execute_frozen stable] at survives
  obtain ⟨execution, result⟩ :=
    regular.confirms confined reads simulated survives member committed fresh
  exact ⟨execution.trans (execute_frozen stable), result.trans (runSimulation_frozen stable)⟩

end Runs

namespace IncrementPole

def alice : Address := 0x100
def counter : Address := 0x301

def empty : EVMState := ⟨fun _ => 0, fun _ _ => 0, fun _ => []⟩

/-- Every call adds one to slot 0 of its callee. -/
def increment (value : DBValue) (callee : Address) : Program CallResult :=
  match value with
  | .hash old => .call (.setState callee 0 (old + 1)) fun _ => .done ⟨0, none⟩
  | _ => .done ⟨0, none⟩

def engines : Engines where
  vm := ⟨fun e _ _ _ _ _ => .ok e⟩
  simulateCall := fun _ _ _ _ _ _ => .error ""
  evmCall := fun _ callee _ _ _ => .call (.getState callee 0) fun value => increment value callee

def fetched : World where
  numShards := 2
  fetchState := fun _ _ => .ok ⟨none, 0, [], 0⟩
  getStorageAt := fun _ _ _ => .ok 0
  keccak256Hash := fun _ => 0

/-- The counter is at 0 when the simulation reads it, and rises with every further call. -/
def rising : Drift where
  fetchState := fun _ => fetched.fetchState
  getStorageAt := fun n _ _ _ => .ok (BitVec.ofNat 256 n)

def job : CrossShardTx where
  id := "tx-1"
  fromShard := 0
  fromAddr := alice
  toAddr := counter
  value := none
  data := [1]
  rwSet := []

def simulated : CrossShardTx :=
  simulatedTx fetched (Service.accept "" job)
    (executeMoving fetched rising engines.evmCall (Service.accept "" job)).1

def orderBlock : OrchestratorShardBlock := ⟨1, ∅, [simulated]⟩
def yes : AList fun _ : TxID => Bool := (∅ : AList _).insert "tx-1" true

/-- The call is simulated, ordered and voted on by both shards. -/
def voted : List Action :=
  [.call "" job, .simulate fetched, .produce, .deliver 0 orderBlock, .deliver 1 orderBlock,
    .shardProduce 0 (some 0), .shardProduce 1 (some 0), .report 1 1 yes, .report 0 1 yes]

theorem confined : StorageConfined engines.vm := by
  rintro e caller callee data gas value e' ⟨⟩ a other
  rfl

end IncrementPole

open IncrementPole in
/-- At the decision the counter still has the value that was fetched. -/
theorem increment_confirmed :
    ∃ net, Regular engines 2 (fun _ => empty) voted net ∧
      net.service.chain.pendingResult.lookup "tx-1" = some true ∧
      simulated.rwSet = [⟨counter, ⟨1⟩, [⟨0, hashBytes 0⟩], [⟨0, hashBytes 0, hashBytes 1⟩]⟩] ∧
      (runSimulation ((frozen fetched (executeMoving fetched rising engines.evmCall
          (Service.accept "" job)).2).withStorage (storageNow net)) engines.evmCall
        (Service.accept "" job)).1 = .onSuccess simulated := by
  have regular : Regular engines 2 (fun _ => empty) voted _ :=
    ⟨rfl, by decide, by decide +kernel, by decide +kernel⟩
  have success : (runSimulationMoving fetched rising engines.evmCall (Service.accept "" job)).1 =
      .onSuccess simulated := by decide +kernel
  have survives :
      accessed (executeMoving fetched rising engines.evmCall (Service.accept "" job)).1.ops ⊆
        surviving (executeMoving fetched rising engines.evmCall (Service.accept "" job)).1.ops := by
    decide +kernel
  obtain ⟨-, same⟩ := commit_confirms_simulation confined regular (by decide +kernel) success
    (stable_of_nodup (by decide +kernel)) (fun _ access => survives access) (by decide +kernel)
    (by decide +kernel) (by decide +kernel)
  refine ⟨_, regular, by decide +kernel, by decide +kernel, ?_⟩
  rw [same]
  exact success

end CrossShard.Network
