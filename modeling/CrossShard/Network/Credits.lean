/-
# Network.Credits -- who stores the credit of an ordered transfer

When a shard processes an order it stores a pending credit if it is involved and the recipient's
address is its own.  Involvement comes from the read/write set: given by the client
(`handleSubmit`) or built by the simulation, where the shard of an address is its last byte
modulo the number of shards the orchestrator was started with.  Ownership is the last byte modulo
the constant `NumShards` of the shard package.  The recipient is `To`, although the simulation
falls back to another address when `To` is zero.

`credited_once_iff` says exactly when the three agree.
-/
import CrossShard.Network.Model
import CrossShard.Orchestrator.ReadSets

namespace CrossShard.Network

set_option autoImplicit false

open CrossShard.Library CrossShard.Protocol CrossShard.Shard CrossShard.Orchestrator

/-! ## Where ordered transactions come from -/

/-- `X` is ordered by an orchestrator with `numShards` shards, and its value was sent to
`sentTo`: it was accepted as submitted, or a simulation of it succeeded. -/
inductive Origin (numShards : Nat) (X : CrossShardTx) (sentTo : Address) : Prop
  | submitted (s : Service) (count : s.numShards = numShards) (uuid : TxID) (req : CrossShardTx)
      (request : X = Service.accept uuid req)
      (accepted : (s.handleSubmit uuid req).1 = .submitted X.id X.status)
      (recipient : sentTo = X.toAddr)
  | simulated (s : Service) (count : s.numShards = numShards) (uuid : TxID)
      (req job : CrossShardTx) (request : job = Service.accept uuid req)
      (queued : (s.handleCall uuid req).1 = .simulating job.id .pending)
      (W : World) (call : EvmCall)
      (succeeded : (runSimulation (s.world W) call job).1 = .onSuccess X)
      (recipient : sentTo = callTarget job)

/-- Every entry that a simulation builds names the shard of its address. -/
theorem shardNum_of_simulated {W : World} {call : EvmCall} {job : CrossShardTx} {rw : RwVariable}
    (listed : rw ∈ (execute W call job).db.buildRwSet W) :
    rw.referenceBlock.shardNum = W.addressToShard rw.address := by
  have start : Covers W (Frames.step ⟨[], []⟩ (.prepare job.fromAddr 0 none [] []))
      (SimulationStateDB.newSimulationStateDB.prepare job.fromAddr 0 none [] []) :=
    (covers_start W).step (.prepare job.fromAddr 0 none [] [])
  have covers := start.run (call job.fromAddr (callTarget job) job.data (callGas job)
    (uint256FromBig (toBigInt job.value)))
  obtain ⟨addr, -, rfl⟩ := List.mem_map.1 listed
  exact covers.shardOfEntry addr

theorem managed_iff {s : Service} {shard : Int} :
    s.managed shard = true ↔ 0 ≤ shard ∧ shard < s.numShards := by
  simp [Service.managed]

theorem managed_of_submitted {s : Service} {uuid : TxID} {req : CrossShardTx} {id : TxID}
    {status : TxStatus} (accepted : (s.handleSubmit uuid req).1 = .submitted id status) {shard : Int}
    (involved : shard ∈ (Service.accept uuid req).involvedShards) : s.managed shard = true := by
  unfold Service.handleSubmit at accepted
  dsimp only at accepted
  split at accepted
  · cases accepted
  · rename_i source
    split at accepted
    · cases accepted
    · rename_i targets
      rcases CrossShardTx.mem_involvedShards.1 involved with rfl | ⟨rw, listed, rfl⟩
      · exact Bool.not_eq_false _ ▸ source
      · by_contra bad
        exact targets ⟨rw, listed, by simpa using bad⟩

theorem managed_of_queued {s : Service} {uuid : TxID} {req : CrossShardTx} {id : TxID}
    {status : SimulationStatus} (queued : (s.handleCall uuid req).1 = .simulating id status) :
    s.managed (Service.accept uuid req).fromShard = true := by
  unfold Service.handleCall at queued
  dsimp only at queued
  split at queued
  · cases queued
  · rename_i source
    exact Bool.not_eq_false _ ▸ source

theorem addressToShard_lt {W : World} (some_ : 0 < W.numShards) (addr : Address) :
    0 ≤ W.addressToShard addr ∧ W.addressToShard addr < W.numShards := by
  have below : lastByte addr % W.numShards < W.numShards := Nat.mod_lt _ some_
  unfold StateFetcher.addressToShard
  omega

/-- The involved shards of an ordered transaction exist. -/
theorem Origin.managed {numShards : Nat} {X : CrossShardTx} {sentTo : Address}
    (origin : Origin numShards X sentTo) {shard : Int} (involved : shard ∈ X.involvedShards) :
    0 ≤ shard ∧ shard < numShards := by
  cases origin with
  | submitted s count uuid req request accepted recipient =>
      rw [← count, ← managed_iff]
      rw [request] at involved
      exact managed_of_submitted accepted involved
  | simulated s count uuid req job request queued W call succeeded recipient =>
      rw [← count]
      have source : 0 ≤ job.fromShard ∧ job.fromShard < s.numShards := by
        rw [request]
        exact managed_iff.1 (managed_of_queued queued)
      rcases runSimulation_cases (s.world W) call job with ⟨err, -, failed⟩ | ⟨-, success⟩
      · rw [failed] at succeeded
        cases succeeded
      · have same : simulatedTx (s.world W) job (execute (s.world W) call job) = X :=
          Callback.onSuccess.inj (success.symm.trans succeeded)
        rw [← same] at involved
        rw [CrossShardTx.mem_involvedShards, rwSet_simulatedTx, fromShard_simulatedTx] at involved
        rcases involved with home | ⟨rw, listed, home⟩
        · rw [home]
          exact source
        · rw [← home, shardNum_of_simulated listed]
          have positive : 0 < (s.world W).numShards := by
            show 0 < s.numShards
            omega
          exact addressToShard_lt positive rw.address

/-! ## What processing an order stores -/

section Process

variable {x : TxID}

theorem pendingCredits_processResult (c : Chain) (result : Σ _ : TxID, Bool) :
    (c.processResult result).pendingCredits = c.pendingCredits := by
  unfold Chain.processResult Chain.checkAndMarkCommitProcessed
  split
  · rename_i marked fresh same
    split at same <;> cases same <;> split <;> rfl

theorem pendingCredits_foldl_processResult (c : Chain) (results : List (Σ _ : TxID, Bool)) :
    (results.foldl Chain.processResult c).pendingCredits = c.pendingCredits ∧
      (results.foldl Chain.processResult c).shardID = c.shardID := by
  induction results generalizing c with
  | nil => exact ⟨rfl, rfl⟩
  | cons result results ih =>
      obtain ⟨credits, shard⟩ := ih (c.processResult result)
      refine ⟨credits.trans (pendingCredits_processResult c result), shard.trans ?_⟩
      unfold Chain.processResult Chain.checkAndMarkCommitProcessed
      split
      · rename_i marked fresh same
        split at same <;> cases same <;> split <;> rfl

theorem shardID_processOrder (c : Chain) (tx : CrossShardTx) :
    (c.processOrder tx).shardID = c.shardID := by
  by_cases involved : c.shardID ∈ tx.involvedShards
  · rw [Chain.processOrder_of_involved involved]
    exact congrArg Chain.Steady.shardID (c.steady_noteOrder tx)
  · rw [Chain.processOrder_of_foreign involved]

/-- Orders of other transactions store nothing for `x`. -/
theorem pendingCredits_foldl_of_ne {txs : List CrossShardTx} (others : ∀ tx ∈ txs, tx.id ≠ x) :
    ∀ c : Chain, (txs.foldl Chain.processOrder c).getPendingCredits x = c.getPendingCredits x ∧
      (txs.foldl Chain.processOrder c).shardID = c.shardID := by
  induction txs with
  | nil => exact fun c => ⟨rfl, rfl⟩
  | cons tx txs ih =>
      intro c
      obtain ⟨credits, shard⟩ := ih (fun t listed => others t (List.mem_cons_of_mem _ listed))
        (c.processOrder tx)
      refine ⟨credits.trans ?_, shard.trans (shardID_processOrder c tx)⟩
      by_cases involved : c.shardID ∈ tx.involvedShards
      · rw [Chain.processOrder_of_involved involved]
        have other : x ≠ tx.id := Ne.symm (others tx List.mem_cons_self)
        exact congrArg Chain.TxView.credits (Chain.view_noteOrder_of_ne other)
      · rw [Chain.processOrder_of_foreign involved]

/-- The credit that a shard without one stores for `X` when it processes a block ordering it. -/
theorem getPendingCredits_processBlock {c : Chain} {block : OrchestratorShardBlock}
    {X : CrossShardTx} (listed : X ∈ block.ctToOrder)
    (distinct : (block.ctToOrder.map CrossShardTx.id).Nodup)
    (next : c.lastOrchestratorHeight < block.height) (clear : c.getPendingCredits X.id = none) :
    (c.processOrchestratorBlock block).getPendingCredits X.id =
      if c.shardID ∈ X.involvedShards ∧ 0 < toBigInt X.value ∧ shardOf X.toAddr = c.shardID then
        some [⟨X.toAddr, toBigInt X.value⟩]
      else none := by
  obtain ⟨before, after, split⟩ := List.append_of_mem listed
  rw [split, List.map_append, List.map_cons] at distinct
  obtain ⟨-, later, apart⟩ := List.nodup_append.1 distinct
  have earlier : ∀ tx ∈ before, tx.id ≠ X.id := fun tx member =>
    apart _ (List.mem_map_of_mem member) _ List.mem_cons_self
  have others : ∀ tx ∈ after, tx.id ≠ X.id := fun tx member own =>
    (List.nodup_cons.1 later).1 (own ▸ List.mem_map_of_mem member)
  unfold Chain.processOrchestratorBlock
  rw [if_neg (by omega), split]
  show ((before ++ X :: after).foldl Chain.processOrder _).getPendingCredits X.id = _
  rw [List.foldl_append, List.foldl_cons]
  obtain ⟨decided, shard⟩ := pendingCredits_foldl_processResult c block.tpcResult.entries
  generalize block.tpcResult.entries.foldl Chain.processResult c = c₁ at decided shard ⊢
  obtain ⟨credits, shard'⟩ := pendingCredits_foldl_of_ne earlier c₁
  generalize before.foldl Chain.processOrder c₁ = c₂ at credits shard' ⊢
  have empty : c₂.pendingCredits.get X.id = none := by
    rw [show c₂.pendingCredits.get X.id = _ from credits]
    show c₁.pendingCredits.get X.id = none
    rw [decided]
    exact clear
  rw [(pendingCredits_foldl_of_ne others _).1, ← shard, ← shard']
  by_cases involved : c₂.shardID ∈ X.involvedShards
  · rw [Chain.processOrder_of_involved involved]
    show (c₂.noteOrder X).pendingCredits.get X.id = _
    rw [Chain.get_pendingCredits_noteOrder, empty]
    simp only [involved, true_and, Option.getD_none, List.nil_append]
  · rw [Chain.processOrder_of_foreign involved, if_neg fun all => involved all.1]
    exact empty

end Process

/-! ## Crediting once -/

/-- The credits stored for `X` at a shard that processes `block`. -/
def storedCredits (shards : Int → Chain) (block : OrchestratorShardBlock) (X : CrossShardTx)
    (shard : Int) : Option (List PendingCredit) :=
  ((shards shard).processOrchestratorBlock block).getPendingCredits X.id

/-- Exactly one of the existing shards that `X` involves stores a credit, and it is the value of
`X` for the address it was sent to. -/
def CreditedOnce (numShards : Nat) (shards : Int → Chain) (block : OrchestratorShardBlock)
    (X : CrossShardTx) (sentTo : Address) : Prop :=
  ∃ shard : Int, (0 ≤ shard ∧ shard < numShards) ∧ shard ∈ X.involvedShards ∧
    storedCredits shards block X shard = some [⟨sentTo, toBigInt X.value⟩] ∧
    ∀ other ∈ X.involvedShards, other ≠ shard → storedCredits shards block X other = none

/-- **Who stores the credit.**  For every number of shards and every transfer that the
orchestrator orders, exactly one involved shard stores a credit when it processes the order, of
the value and for the address it was sent to, if and only if the owner of `To` by the shards' own
count is involved and the value was sent to `To`. -/
theorem credited_once_iff {numShards : Nat} {X : CrossShardTx} {sentTo : Address}
    (origin : Origin numShards X sentTo) (positive : 0 < toBigInt X.value)
    (block : OrchestratorShardBlock) (listed : X ∈ block.ctToOrder)
    (distinct : (block.ctToOrder.map CrossShardTx.id).Nodup) (shards : Int → Chain)
    (named : ∀ shard, (shards shard).shardID = shard)
    (next : ∀ shard, (shards shard).lastOrchestratorHeight < block.height)
    (clear : ∀ shard, (shards shard).getPendingCredits X.id = none) :
    CreditedOnce numShards shards block X sentTo ↔
      shardOf X.toAddr ∈ X.involvedShards ∧ sentTo = X.toAddr := by
  have stored : ∀ shard, storedCredits shards block X shard =
      if shard ∈ X.involvedShards ∧ shardOf X.toAddr = shard then
        some [⟨X.toAddr, toBigInt X.value⟩] else none := by
    intro shard
    have all := getPendingCredits_processBlock listed distinct (next shard) (clear shard)
    rw [named] at all
    simp only [positive, true_and] at all
    exact all
  constructor
  · rintro ⟨shard, -, involved, credit, -⟩
    rw [stored] at credit
    split at credit
    · rename_i home
      obtain ⟨-, rfl⟩ := home
      cases credit
      exact ⟨involved, rfl⟩
    · cases credit
  · rintro ⟨involved, rfl⟩
    refine ⟨shardOf X.toAddr, origin.managed involved, involved, ?_, ?_⟩
    · rw [stored, if_pos ⟨involved, rfl⟩]
    · intro other _ apart
      rw [stored, if_neg fun home => apart home.2.symm]

namespace SixShardsPole

def alice : Address := 0x100
def frank : Address := 0x306

def funded : EVMState := ⟨fun a => if a = alice then 10 else 0, fun _ _ => 0, fun _ => []⟩

def engines : Engines where
  vm := ⟨fun e _ _ _ _ _ => .ok e⟩
  simulateCall := fun _ _ _ _ _ _ => .error ""
  evmCall := fun _ _ _ _ _ => .done ⟨0, none⟩

/-- The last byte of `frank` is 6: shard 0 of six, shard 6 of eight. -/
def payFrank : CrossShardTx where
  id := "tx-1"
  fromShard := 0
  fromAddr := alice
  toAddr := frank
  value := some 4
  rwSet := [⟨frank, ⟨0⟩, [], []⟩]

def payAlice : CrossShardTx := { payFrank with toAddr := alice, rwSet := [] }

def orderBlock (tx : CrossShardTx) : OrchestratorShardBlock := ⟨1, ∅, [tx]⟩
def commitBlock : OrchestratorShardBlock := ⟨2, (∅ : AList _).insert "tx-1" true, []⟩

def transferring : List Action :=
  [.submit "" payFrank, .produce, .deliver 0 (orderBlock payFrank), .shardProduce 0 (some 0),
    .report 0 1 ((∅ : AList _).insert "tx-1" true), .produce, .deliver 0 commitBlock,
    .shardProduce 0 (some 0)]

end SixShardsPole

open SixShardsPole in
/-- With six shards the transfer is accepted and committed, `alice` pays, and no shard has a
credit for `frank` or will ever have one: the only shard involved is done with it. -/
theorem debited_and_never_credited :
    Origin 6 payFrank frank ∧ payFrank.involvedShards = [0] ∧
      (∀ shard ∈ ([0, 1, 2, 3, 4, 5] : List Int),
        storedCredits Chain.newChain (orderBlock payFrank) payFrank shard = none) ∧
      ∃ net, run (Cluster.step engines) (Cluster.start 6 fun _ => funded) transferring = some net ∧
        (∃ block ∈ net.service.chain.blocks, block.tpcResult.lookup "tx-1" = some true) ∧
        (net.shards 0).evmState.balance alice = 6 ∧ (net.shards 0).evmState.balance frank = 0 ∧
        (net.shards 0).chain.currentTxs = [] ∧
        (net.shards 0).chain.getPendingCredits "tx-1" = none := by
  refine ⟨?_, by decide +kernel, ?_, ⟨_, rfl, ?_, ?_, ?_, ?_, ?_⟩⟩
  · exact .submitted (Service.newService 6) rfl "" payFrank rfl (by decide +kernel) rfl
  · decide +kernel
  · decide +kernel
  · decide +kernel
  · decide +kernel
  · decide +kernel
  · decide +kernel

open SixShardsPole in
/-- A transfer whose recipient lives on an involved shard. -/
theorem transfer_home_credited :
    CreditedOnce 6 Chain.newChain (orderBlock payAlice) payAlice alice := by
  have origin : Origin 6 payAlice alice :=
    .submitted (Service.newService 6) rfl "" payAlice rfl (by decide +kernel) rfl
  refine (credited_once_iff origin (by decide) (orderBlock payAlice) List.mem_cons_self
    (by decide +kernel) Chain.newChain (fun _ => rfl) (fun _ => Nat.zero_lt_one) ?_).2 ?_
  · exact fun shard => FMap.get_empty _
  · exact ⟨by decide +kernel, rfl⟩

end CrossShard.Network
