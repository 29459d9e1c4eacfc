/-
# Network.Atomicity -- two-phase commit across the whole cluster

The orchestrator decides, the shards act.  Whatever is lost, repeated or reordered between them,
whatever restarts and whatever commit fails: a commit rests on a published YES of every involved
shard, and no shard ever queues or executes an effect of a transaction that another shard, at the
same or another time, aborts.

* `Vouched`: every effect and every abort that a shard holds stands in the log.
* `Tracked.decided_unique`: the log decides an ID in one way only.
* `atomic_commitment`: both together, over every run.
-/
import CrossShard.Network.Histories
import CrossShard.Shard.ExactlyOnce

namespace CrossShard.Orchestrator

set_option autoImplicit false

open CrossShard.Library CrossShard.Protocol

section Results

variable {J : List Note} {c : OrchestratorChain} {x : TxID}

theorem Tracked.placed_nodup (tracked : Tracked J c) (distinct : c.DistinctIDs) :
    c.placedIDs.Nodup := by
  have received : c.received = addedIn J := by
    rw [OrchestratorChain.received, OrchestratorChain.orders, ← tracked.blocks]
    exact tracked.order
  rw [OrchestratorChain.DistinctIDs, received] at distinct
  exact tracked.placed.nodup_iff.1 distinct

/-- Only one block decides an ID. -/
theorem Tracked.result_block (tracked : Tracked J c) (distinct : c.DistinctIDs)
    {block block' : OrchestratorShardBlock} (listed : block ∈ c.blocks) (found : x ∈ block.tpcResult)
    (listed' : block' ∈ c.blocks) (found' : x ∈ block'.tpcResult) : block = block' := by
  have keys := List.nodup_flatMap.1 (List.nodup_append.1 (tracked.placed_nodup distinct)).2.1
  by_contra different
  have : Std.Symm (Function.onFun List.Disjoint
      fun b : OrchestratorShardBlock => b.tpcResult.keys) :=
    ⟨fun _ _ apart => List.Disjoint.symm apart⟩
  exact keys.2.forall listed listed' different found found'

/-- **One decision per ID.** -/
theorem Tracked.decided_unique (tracked : Tracked J c) (distinct : c.DistinctIDs)
    {commit commit' : Bool} (decided : c.Decided x commit) (decided' : c.Decided x commit') :
    commit = commit' := by
  obtain ⟨block, listed, found⟩ := decided
  obtain ⟨block', listed', found'⟩ := decided'
  have same := tracked.result_block distinct listed (mem_of_lookup_eq_some found) listed'
    (mem_of_lookup_eq_some found')
  subst same
  rw [found] at found'
  exact Option.some.inj found'

/-- A result that waits for its block stands in none. -/
theorem Tracked.pending_undecided (tracked : Tracked J c) (distinct : c.DistinctIDs)
    {commit commit' : Bool} (pending : c.pendingResult.lookup x = some commit) :
    ¬c.Decided x commit' := by
  rintro ⟨block, listed, found⟩
  refine (List.nodup_append.1 (tracked.placed_nodup distinct)).2.2 x ?_ x ?_ rfl
  · exact List.mem_append_right _ (mem_of_lookup_eq_some pending)
  · exact List.mem_flatMap.2 ⟨block, listed, mem_of_lookup_eq_some found⟩

/-- A commit rests on a YES of every involved shard. -/
theorem Tracked.committed (tracked : Tracked J c) (committed : c.Committed x) :
    ∃ t ∈ c.orders, t.id = x ∧ ∀ k ∈ t.involvedShards, .accepted x k true ∈ J := by
  have unanimous : ∀ {K L : List Note}, J = K ++ L → Justified K x true →
      ∃ t ∈ c.orders, t.id = x ∧ ∀ k ∈ t.involvedShards, .accepted x k true ∈ J := by
    rintro K L split (⟨t, before, after, order, same, yes, no⟩)
    refine ⟨t, ?_, same, fun k involved => ?_⟩
    · rw [OrchestratorChain.orders, ← tracked.blocks, split, order]
      simp [orderedIn]
    · have vote := yes k involved
      simp [split, order, vote]
  rcases committed with pending | decided
  · exact unanimous (List.append_nil J).symm (tracked.resulted x true pending).1
  · obtain ⟨before, after, split⟩ := List.append_of_mem ((tracked.published x true).2 decided)
    exact unanimous split (tracked.decided before x true after split)

end Results

end CrossShard.Orchestrator

namespace CrossShard.Network

set_option autoImplicit false

open CrossShard.Library CrossShard.Protocol CrossShard.Shard CrossShard.Orchestrator

/-! ## What a shard does stands in the log -/

/-- An effect belongs to a commit of the log, a `CrossAbort` to an abort. -/
structure Backed (c : OrchestratorChain) (tx : Transaction) : Prop where
  effect : tx.txType.priority = 1 → c.Decided tx.crossShardTxID true
  abort : tx.txType = .crossAbort → c.Decided tx.crossShardTxID false

/-- All that a shard has queued, is about to execute or has included is backed. -/
structure Vouched (c : OrchestratorChain) (n : Node) : Prop where
  queue : ∀ tx ∈ n.chain.currentTxs, Backed c tx
  waiting : ∀ tx ∈ n.outstanding, Backed c tx
  included : ∀ tx ∈ n.included, Backed c tx

theorem vouched_start (c : OrchestratorChain) (k : Int) (evm : EVMState) :
    Vouched c (Node.start k evm) :=
  ⟨List.forall_mem_nil _, List.forall_mem_nil _, List.forall_mem_nil _⟩

theorem Backed.mono {c c' : OrchestratorChain} {tx : Transaction} (backed : Backed c tx)
    (grown : c.blocks <+: c'.blocks) : Backed c' tx :=
  ⟨fun first => (backed.effect first).mono grown, fun kind => (backed.abort kind).mono grown⟩

theorem Vouched.mono {c c' : OrchestratorChain} {n : Node} (vouched : Vouched c n)
    (grown : c.blocks <+: c'.blocks) : Vouched c' n where
  queue tx member := (vouched.queue tx member).mono grown
  waiting tx member := (vouched.waiting tx member).mono grown
  included tx member := (vouched.included tx member).mono grown

theorem backed_of_neither {c : OrchestratorChain} {tx : Transaction}
    (late : tx.txType.priority ≠ 1) (other : tx.txType ≠ .crossAbort) : Backed c tx :=
  ⟨fun first => absurd first late, fun kind => absurd kind other⟩

/-- What an event queues is backed by the decision it processes. -/
theorem backed_of_added {c : OrchestratorChain} {vm : VM} {n n' : Node} {e : Event}
    (stands : Stands c e) (taken : Taken vm n e n') : ∀ tx ∈ Shard.added n e, Backed c tx := by
  intro tx member
  cases taken with
  | decided x commit idle fresh =>
      simp only [Shard.added, fresh, Bool.false_eq_true, if_false] at member
      have own : tx.crossShardTxID = x := id_of_mem_decisionTxs member
      have decided : c.Decided x commit := stands
      rcases mem_decisionTxs member with ⟨rfl, effect⟩ | ⟨rfl, rfl⟩ | rfl
      · refine ⟨fun _ => own ▸ decided, fun kind => ?_⟩
        rcases mem_commitTxs.1 effect with ⟨lock, -, rfl⟩ | ⟨credits, -, credit, -, rfl⟩ |
          ⟨call, -, -, rfl⟩ | ⟨rwSet, -, -, rfl⟩ <;> cases kind
      · exact ⟨fun first => absurd first (by simp [Chain.crossTx, TxType.priority]), fun _ => decided⟩
      · exact backed_of_neither (by simp [Chain.crossTx, TxType.priority]) (by simp [Chain.crossTx])
  | ordered t idle involved =>
      simp only [Shard.added, involved, if_true, List.mem_singleton] at member
      subst member
      exact backed_of_neither (by simp [Chain.lockTx, Chain.crossTx, TxType.priority])
        (by simp [Chain.lockTx, Chain.crossTx])
  | submitted t idle kind unnamed =>
      rw [List.mem_singleton.1 member]
      exact backed_of_neither (by simp [kind, TxType.priority]) (by simp [kind])
  | stale x commit idle processed => simp [Shard.added, processed] at member
  | passed t idle foreign => simp [Shard.added, foreign] at member
  | _ => cases member

/-- **One event.** -/
theorem Vouched.step {c : OrchestratorChain} {vm : VM} {n n' : Node} {e : Event}
    (vouched : Vouched c n) (stands : Stands c e) (taken : Taken vm n e n') : Vouched c n' where
  queue tx member :=
    (taken.mem_currentTxs member).elim (vouched.queue tx) (backed_of_added stands taken tx)
  waiting tx member := by
    by_cases failed : e = .commitError
    · -- a failed commit leaves the queue for the next attempt
      subst failed
      cases taken
      exact vouched.queue tx member
    · exact (taken.mem_outstanding failed member).elim (vouched.waiting tx)
        (backed_of_added stands taken tx)
  included tx member :=
    (taken.mem_included member).elim (vouched.included tx) (vouched.waiting tx)

/-! ## Every run -/

/-- At some time of the run shard `k` had `tx` in its queue or in a block. -/
def Handled (E : Engines) (start : Cluster) (as : List Action) (k : Int) (tx : Transaction) : Prop :=
  ∃ pre post mid, as = pre ++ post ∧ run (Cluster.step E) start pre = some mid ∧
    tx ∈ (mid.shards k).chain.currentTxs ++
      (mid.shards k).chain.blocks.flatMap StateShardBlock.txOrdering

section Runs

variable {E : Engines} {numShards : Nat} {evm : Int → EVMState} {as : List Action} {net : Cluster}

/-- **Every effect and every abort of every shard stands in the log.** -/
theorem backed_of_handled
    (reached : run (Cluster.step E) (Cluster.start numShards evm) as = some net) {k : Int}
    {tx : Transaction} (handled : Handled E (Cluster.start numShards evm) as k tx) :
    Backed net.service.chain tx := by
  obtain ⟨pre, post, mid, rfl, early, member⟩ := handled
  have late := run_rest early reached
  have vouched : Vouched mid.service.chain (mid.shards k).node :=
    shards_invariant (fun c _ n => Vouched c n) (fun c k e => vouched_start c k e)
      (fun _ _ _ _ grown vouched => vouched.mono grown)
      (fun _ _ _ _ _ stands taken vouched => vouched.step stands taken) early k
  have backed : Backed mid.service.chain tx := by
    rcases List.mem_append.1 member with queued | done
    · exact vouched.queue tx queued
    · exact vouched.included tx (List.mem_append_left _ done)
  exact backed.mono (blocks_run late)

/-- **A commit rests on every involved shard.** -/
theorem unanimous_of_committed
    (reached : run (Cluster.step E) (Cluster.start numShards evm) as = some net)
    (distinct : net.service.chain.DistinctIDs) {x : TxID}
    (committed : net.service.chain.Committed x) :
    ∃ t ∈ net.service.chain.orders, t.id = x ∧
      ∀ k ∈ t.involvedShards, Published E (Cluster.start numShards evm) as x k true := by
  obtain ⟨J, tracked, heard⟩ := tracked_of_run reached distinct
  obtain ⟨t, member, own, votes⟩ := tracked.committed committed
  exact ⟨t, member, own, fun k involved => heard x k true (votes k involved)⟩

/-- **Atomic commitment.**  In every run of the cluster in which no ID is added twice, with any
loss, repetition and reordering of messages, any restarts and any failed commits: if the log
commits `x`, every shard that the ordered transaction involves has published a YES on it; a shard
queues or includes an effect of `x` only if the log commits `x`; and if some shard does so, at any
time, then no shard at any time queues or includes an abort of `x`. -/
theorem atomic_commitment
    (reached : run (Cluster.step E) (Cluster.start numShards evm) as = some net)
    (distinct : net.service.chain.DistinctIDs) (x : TxID) :
    (net.service.chain.Decided x true →
      ∃ t ∈ net.service.chain.orders, t.id = x ∧
        ∀ k ∈ t.involvedShards, Published E (Cluster.start numShards evm) as x k true) ∧
    (∀ k tx, Handled E (Cluster.start numShards evm) as k tx → IsEffect tx →
      tx.crossShardTxID = x → net.service.chain.Decided x true) ∧
    ∀ k tx k' tx', Handled E (Cluster.start numShards evm) as k tx →
      Handled E (Cluster.start numShards evm) as k' tx' → IsEffect tx → tx.crossShardTxID = x →
      tx'.txType = .crossAbort → tx'.crossShardTxID ≠ x := by
  have committed : ∀ k tx, Handled E (Cluster.start numShards evm) as k tx → IsEffect tx →
      tx.crossShardTxID = x → net.service.chain.Decided x true := by
    intro k tx handled effect own
    exact own ▸ (backed_of_handled reached handled).effect effect.priority_eq
  refine ⟨fun decided => unanimous_of_committed reached distinct (.inr decided), committed, ?_⟩
  intro k tx k' tx' handled handled' effect own abort own'
  obtain ⟨J, tracked, -⟩ := tracked_of_run reached distinct
  have aborted : net.service.chain.Decided x false :=
    own' ▸ (backed_of_handled reached handled').abort abort
  have same := tracked.decided_unique distinct (committed k tx handled effect own) aborted
  cases same

end Runs

namespace RestartPole

def alice : Address := 0x100
def carol : Address := 0x301

def funded : EVMState := ⟨fun a => if a = alice then 10 else 0, fun _ _ => 0, fun _ => []⟩

def engines : Engines where
  vm := ⟨fun e _ _ _ _ _ => .ok e⟩
  simulateCall := fun _ _ _ _ _ _ => .error ""
  evmCall := fun _ _ _ _ _ => .done ⟨0, none⟩

def payCarol : CrossShardTx where
  id := "tx-1"
  fromShard := 0
  fromAddr := alice
  toAddr := carol
  value := some 4
  rwSet := [⟨carol, ⟨1⟩, [], []⟩]

def orderBlock : OrchestratorShardBlock := ⟨1, ∅, [payCarol]⟩
def commitBlock : OrchestratorShardBlock := ⟨2, (∅ : AList _).insert "tx-1" true, []⟩
def yes : AList fun _ : TxID => Bool := (∅ : AList _).insert "tx-1" true

/-- A commit of shard 1 fails first, a report arrives twice, and after the decision shard 1
restarts and does not reach the orchestrator. -/
def troubled : List Action :=
  [.submit "" payCarol, .produce, .deliver 1 orderBlock, .deliver 0 orderBlock,
    .shardProduce 1 none, .shardProduce 0 (some 0), .shardProduce 1 (some 0), .report 1 1 yes,
    .report 1 1 yes, .report 0 1 yes, .produce, .restart 1 funded false [],
    .deliver 0 commitBlock, .shardProduce 0 (some 0), .shardProduce 1 (some 0)]

end RestartPole

open RestartPole in
/-- The transfer commits although shard 1 has lost its vote by then. -/
theorem troubled_transfer_is_atomic :
    ∃ net, run (Cluster.step engines) (Cluster.start 2 fun _ => funded) troubled = some net ∧
      net.service.chain.Decided "tx-1" true ∧
      (∀ block ∈ (net.shards 1).chain.blocks, block.tpcPrepare.get "tx-1" ≠ some true) ∧
      ∃ t ∈ net.service.chain.orders, t.id = "tx-1" ∧
        ∀ k ∈ t.involvedShards,
          Published engines (Cluster.start 2 fun _ => funded) troubled "tx-1" k true := by
  refine ⟨_, rfl, by decide +kernel, by decide +kernel, ?_⟩
  exact (atomic_commitment rfl (by decide +kernel) "tx-1").1 (by decide +kernel)

end CrossShard.Network
