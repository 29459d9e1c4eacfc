/-
# Network.FailedSimulation -- what becomes of a transaction whose simulation failed

`onError` adds the failed transaction to the chain, marked with `SimStatus`.  Nothing after that
looks at the mark: the next block orders the transaction like any other one, the orchestrator
waits for votes on it, and the shards lock, vote, debit and credit.

* `Unordered`: what the orchestrator can know about an ID that no block has ordered, and
  `Unordered.apply`: only a block production with the ID in the queue ends it.
* `TakesNoPart`: neither the orchestrator nor any shard does anything for the ID.
* `failed_simulation_excluded_iff`: after a failed simulation the transaction takes no part
  exactly as long as the orchestrator produces no block.
-/
import CrossShard.Network.Model
import CrossShard.Orchestrator.Lifecycle

namespace CrossShard.Network

set_option autoImplicit false

open CrossShard.Library CrossShard.Protocol CrossShard.Shard CrossShard.Orchestrator

/-! ## The orchestrator -/

/-- No block has ordered or decided `x`, and no decision is on its way. -/
structure Unordered (x : TxID) (c : OrchestratorChain) : Prop where
  awaiting : x ∉ c.awaitingVotes
  result : x ∉ c.pendingResult
  blocks : ∀ block ∈ c.blocks, Shard.Silent x block

theorem unordered_start (x : TxID) : Unordered x OrchestratorChain.newOrchestratorChain where
  awaiting := AList.notMem_empty x
  result := AList.notMem_empty x
  blocks block listed := by
    rw [List.mem_singleton.1 listed]
    exact ⟨AList.notMem_empty x, List.forall_mem_nil _⟩

section Moves

variable {x : TxID} {c c' : OrchestratorChain} {notes : List Note}

theorem Unordered.settle (inv : Unordered x c) {txID : TxID} (awaiting : txID ∈ c.awaitingVotes)
    (commit : Bool) : Unordered x (c.settle txID commit) where
  awaiting member := inv.awaiting (OrchestratorChain.mem_awaiting_settle.1 member).2
  result member := by
    rcases (AList.mem_insert _).1 member with rfl | old
    · exact inv.awaiting awaiting
    · exact inv.result old
  blocks := inv.blocks

/-- After a block the IDs it orders are awaited, with those awaited before. -/
theorem mem_awaiting_emit (c : OrchestratorChain) :
    x ∈ c.emit.2.awaitingVotes ↔ (∃ tx ∈ c.pendingTxs, tx.id = x) ∨ x ∈ c.awaitingVotes := by
  have loop := awaited_foldl ((c.height + 1) % 2 ^ 64) c c.pendingTxs
  have found : c.emit.2.awaitingVotes.lookup x = _ := loop.awaiting x
  rw [← AList.lookup_isSome, found, Option.isSome_or, Bool.or_eq_true, AList.lookup_isSome]
  refine or_congr_left ?_
  simp [lastWith]

theorem Unordered.move (inv : Unordered x c) (move : Move c notes c')
    (quiet : ∀ tx, Note.ordered tx ∈ notes → tx.id ≠ x) : Unordered x c' := by
  cases move with
  | queued tx => exact ⟨inv.awaiting, inv.result, inv.blocks⟩
  | retimed blocks => exact ⟨inv.awaiting, inv.result, inv.blocks⟩
  | cast txID shardID awaiting => exact ⟨inv.awaiting, inv.result, inv.blocks⟩
  | refused txID shardID awaiting => exact inv.settle awaiting false
  | agreed txID shardID awaiting all => exact inv.settle awaiting true
  | expired txID awaiting => exact inv.settle awaiting false
  | emitted =>
      have others : ∀ tx ∈ c.pendingTxs, tx.id ≠ x := fun tx listed =>
        quiet tx (List.mem_append_right _ (List.mem_map_of_mem listed))
      refine ⟨fun member => ?_, AList.notMem_empty x, fun block listed => ?_⟩
      · rcases (mem_awaiting_emit c).1 member with ⟨tx, listed, own⟩ | old
        · exact others tx listed own
        · exact inv.awaiting old
      · rcases List.mem_append.1 listed with old | new
        · exact inv.blocks block old
        · rw [List.mem_singleton.1 new]
          exact ⟨inv.result, others⟩

theorem Unordered.moves (moves : Moves c notes c') (inv : Unordered x c)
    (quiet : ∀ tx, Note.ordered tx ∈ notes → tx.id ≠ x) : Unordered x c' := by
  induction moves with
  | refl c => exact inv
  | cons first rest ih =>
      refine ih (inv.move first fun tx told => ?_) fun tx told => ?_
      · exact quiet tx (List.mem_append_left _ told)
      · exact quiet tx (List.mem_append_right _ told)

/-- Only a block production with `x` in the queue orders it. -/
theorem Unordered.apply (inv : Unordered x c) (op : Op)
    (quiet : op = .produceBlock → ∀ tx ∈ c.pendingTxs, tx.id ≠ x) : Unordered x (c.apply op) := by
  apply Unordered.moves (c.moves_of_apply op) inv
  intro tx told
  cases op with
  | addTransaction t => simp [OrchestratorChain.notes] at told
  | recordVote txID shardID canCommit =>
      simp only [OrchestratorChain.notes] at told
      split at told <;> simp at told
  | checkTimeouts => simp [OrchestratorChain.notes] at told
  | setVoteTimeout blocks => simp [OrchestratorChain.notes] at told
  | produceBlock =>
      simp only [OrchestratorChain.notes, blockNotes, List.mem_append, List.mem_map,
        Note.ordered.injEq, exists_eq_right, reduceCtorEq, and_false, exists_false,
        false_or] at told
      have queue : c.produceBlock.1.ctToOrder = c.pendingTxs := c.frame_checkTimeouts.2
      rw [queue] at told
      exact quiet rfl tx told

theorem Unordered.after (inv : Unordered x c) {ops : List Op} (quiet : Op.produceBlock ∉ ops) :
    Unordered x (c.after ops) := by
  induction ops generalizing c with
  | nil => exact inv
  | cons op ops ih =>
      apply ih (inv.apply op fun same => absurd (same ▸ List.mem_cons_self) quiet)
      exact fun later => quiet (List.mem_cons_of_mem _ later)

/-- A queued transaction stays until a block is produced. -/
theorem mem_pending_after {tx : CrossShardTx} {ops : List Op} (quiet : Op.produceBlock ∉ ops)
    (queued : tx ∈ c.pendingTxs) : tx ∈ (c.after ops).pendingTxs := by
  induction ops generalizing c with
  | nil => exact queued
  | cons op ops ih =>
      apply ih (fun later => quiet (List.mem_cons_of_mem _ later))
      cases op with
      | addTransaction t => exact List.mem_append_left _ queued
      | recordVote txID shardID canCommit => exact (c.frame_recordVote txID shardID canCommit).2 ▸ queued
      | checkTimeouts => exact c.frame_checkTimeouts.2 ▸ queued
      | setVoteTimeout blocks => exact queued
      | produceBlock => exact absurd List.mem_cons_self quiet

/-- The next block orders it. -/
theorem awaiting_of_produced {tx : CrossShardTx} (queued : tx ∈ c.pendingTxs) :
    tx.id ∈ (c.apply .produceBlock).awaitingVotes := by
  apply (mem_awaiting_emit c.checkTimeouts.2).2
  exact .inl ⟨tx, c.frame_checkTimeouts.2 ▸ queued, rfl⟩

end Moves

/-! ## The cluster -/

/-- No one has been asked to do anything for `x`. -/
structure Quiet (x : TxID) (net : Cluster) : Prop where
  service : Unordered x net.service.chain
  shards : ∀ shard, (net.shards shard).Untouched x

/-- A block production orders no transaction with the ID `x`. -/
def Leaves (x : TxID) (net : Cluster) (a : Action) : Prop :=
  a = .produce → ∀ tx ∈ net.service.chain.pendingTxs, tx.id ≠ x

theorem quiet_start (x : TxID) (numShards : Nat) (evm : Int → EVMState) :
    Quiet x (Cluster.start numShards evm) :=
  ⟨unordered_start x, fun shard => Server.untouched_fresh x shard (evm shard)⟩

theorem silent_of_same {x : TxID} {block block' : OrchestratorShardBlock}
    (same : SameBlock block block') (silent : Shard.Silent x block) : Shard.Silent x block' := by
  obtain ⟨-, results, orders⟩ := same
  refine ⟨fun decided => silent.1 ?_, orders ▸ silent.2⟩
  exact (results.map Sigma.fst).mem_iff.2 decided

theorem silent_of_recovery {x : TxID} {c : OrchestratorChain} (inv : Unordered x c)
    (reachable : Bool) (failing : List Nat) (height : Nat) (block : OrchestratorShardBlock)
    (fetched : (recoveryView c reachable failing).fetch height = .block block) :
    Shard.Silent x block := by
  simp only [recoveryView, blockAt] at fetched
  split at fetched
  · cases fetched
  · split at fetched
    · cases fetched
    · rename_i found
      cases fetched
      split at found
      · cases found
      · exact inv.blocks block (List.mem_of_getElem? found)

theorem Quiet.setShard {x : TxID} {net : Cluster} (inv : Quiet x net) (shard : Int) {server : Server}
    (untouched : server.Untouched x) : Quiet x (net.setShard shard server) := by
  refine ⟨inv.service, fun other => ?_⟩
  show (Function.update net.shards shard server other).Untouched x
  rw [Function.update_apply]
  split
  · exact untouched
  · exact inv.shards other

/-- **One action.** -/
theorem Quiet.step {E : Engines} {x : TxID} {net net' : Cluster} {a : Action} (inv : Quiet x net)
    (leaves : Leaves x net a) (stepped : net.step E a = some net') : Quiet x net' := by
  cases Cluster.taken_of_step stepped with
  | served _ service ops chain blocks =>
      refine ⟨?_, inv.shards⟩
      rw [chain]
      by_cases produces : Op.produceBlock ∈ ops
      · obtain ⟨rfl, rfl⟩ := blocks produces
        exact inv.service.apply .produceBlock fun _ => leaves rfl
      · exact inv.service.after produces
  | delivered shard block sent listed same =>
      exact inv.setShard shard
        ((inv.shards shard).deliver (silent_of_same same (inv.service.blocks sent listed)))
  | requested shard txID req =>
      exact inv.setShard shard ((inv.shards shard).submit E.simulateCall txID req)
  | produced shard commit p ran => exact inv.setShard shard ((inv.shards shard).produce ran)
  | restarted shard evm reachable failing =>
      apply inv.setShard shard
      exact Server.untouched_newServer x shard evm _ (silent_of_recovery inv.service reachable failing)

/-! ## Taking no part -/

/-- A shard holds nothing for `x`, and no cross-shard transaction of `x` is queued or has
entered a block. -/
structure ShardIdle (x : TxID) (c : Chain) : Prop where
  forgotten : c.Forgotten x
  unreserved : ∀ addr, ∀ entry ∈ c.entriesAt addr, entry.txID ≠ x
  unqueued : ∀ tx ∈ c.currentTxs, Foreign x tx
  unexecuted : ∀ block ∈ c.blocks, ∀ tx ∈ block.txOrdering, Foreign x tx

/-- `x` takes no part in the two-phase commit: it is not awaited, no block commits it, and no
shard acts for it. -/
structure TakesNoPart (x : TxID) (net : Cluster) : Prop where
  unawaited : x ∉ net.service.chain.awaitingVotes
  uncommitted : ∀ block ∈ net.service.chain.blocks, block.tpcResult.lookup x ≠ some true
  shards : ∀ shard, ShardIdle x (net.shards shard).chain

theorem shardIdle_of_untouched {x : TxID} {s : Server} (inv : s.Untouched x) :
    ShardIdle x s.chain := by
  have view := inv.node.view
  refine ⟨⟨fun addr slot held => ?_, congrArg Chain.TxView.funds view,
    congrArg Chain.TxView.credits view, congrArg Chain.TxView.call view,
    congrArg Chain.TxView.rwSet view⟩, fun addr entry listed own => ?_, inv.node.queue, ?_⟩
  · have key : (⟨addr, slot⟩ : SlotKey) ∈ (s.node.chain.view x).slots := held
    rw [view] at key
    exact key
  · have entries : (s.chain.entriesAt addr).filter (fun e => e.txID = x) = [] :=
      congrFun (congrArg Chain.TxView.entries view) addr
    have kept : entry ∈ (s.chain.entriesAt addr).filter (fun e => e.txID = x) := by
      simp [listed, own]
    rw [entries] at kept
    cases kept
  · intro block listed tx member
    apply inv.node.included tx
    exact List.mem_append_left _ (List.mem_flatMap.2 ⟨block, listed, member⟩)

theorem Quiet.takesNoPart {x : TxID} {net : Cluster} (inv : Quiet x net) : TakesNoPart x net where
  unawaited := inv.service.awaiting
  uncommitted block listed decided :=
    (inv.service.blocks block listed).1 (mem_of_lookup_eq_some decided)
  shards shard := shardIdle_of_untouched (inv.shards shard)

/-! ## After a failed simulation -/

section Failed

variable {E : Engines} {x : TxID}

theorem Quiet.run {net net' : Cluster} {as : List Action} (inv : Quiet x net)
    (leaves : Along (Cluster.step E) (Leaves x) net as)
    (reached : run (Cluster.step E) net as = some net') : Quiet x net' :=
  Along.invariant (Quiet x) (fun _ _ _ inv' leaves' stepped => inv'.step leaves' stepped) inv leaves
    reached

/-- A queued transaction waits for the next block of the orchestrator. -/
theorem mem_pending_run {tx : CrossShardTx} {net net' : Cluster} {as : List Action}
    (quiet : Action.produce ∉ as) (queued : tx ∈ net.service.chain.pendingTxs)
    (reached : run (Cluster.step E) net as = some net') : tx ∈ net'.service.chain.pendingTxs := by
  refine run_preserves (P := fun a => a ≠ Action.produce) (fun mid => tx ∈ mid.service.chain.pendingTxs)
    ?_ queued (fun a member same => quiet (same ▸ member)) reached
  intro net a mid queued other stepped
  cases Cluster.taken_of_step stepped with
  | served _ service ops chain blocks =>
      rw [chain]
      exact mem_pending_after (fun produces => other (blocks produces).1) queued
  | delivered shard block sent listed same => exact queued
  | requested shard txID req => exact queued
  | produced shard commit p ran => exact queued
  | restarted shard evm reachable failing => exact queued

/-- The simulation worker hands the failed transaction to the chain. -/
theorem failed_is_queued {before after : Cluster} {W : World} {X : CrossShardTx}
    {rest : List CrossShardTx} {err : String} (job : before.service.simulator.queue = X :: rest)
    (failed : (runSimulation (before.service.world W) E.evmCall X).1 = .onError (failedTx X err))
    (stepped : before.step E (.simulate W) = some after) :
    failedTx X err ∈ after.service.chain.pendingTxs := by
  obtain ⟨s, ran, rfl⟩ := Option.map_eq_some_iff.1 stepped
  obtain ⟨tx, rest', queue, chain⟩ := Service.chain_simulateNext ran
  rw [job] at queue
  cases queue
  rw [chain, failed]
  exact List.mem_append_right _ List.mem_cons_self

end Failed

/-- **A failed simulation and the two-phase commit.**  In every run of the orchestrator and the
shards in which no earlier block ordered the ID of `X`, after a simulation of `X` that ends with
an error, `X` takes no part in any later state if and only if the orchestrator produces no
further block. -/
theorem failed_simulation_excluded_iff (E : Engines) (numShards : Nat) (evm : Int → EVMState)
    (pre post : List Action) (before after final : Cluster) (W : World) (X : CrossShardTx)
    (rest : List CrossShardTx) (err : String)
    (reached : run (Cluster.step E) (Cluster.start numShards evm) pre = some before)
    (unused : Along (Cluster.step E) (Leaves X.id) (Cluster.start numShards evm) pre)
    (job : before.service.simulator.queue = X :: rest)
    (failed : (runSimulation (before.service.world W) E.evmCall X).1 = .onError (failedTx X err))
    (recorded : before.step E (.simulate W) = some after)
    (ran : run (Cluster.step E) after post = some final) :
    (∀ mid more net, post = mid ++ more → run (Cluster.step E) after mid = some net →
        TakesNoPart X.id net) ↔
      Action.produce ∉ post := by
  have leaves : Leaves X.id before (.simulate W) := fun other => by cases other
  have quiet : Quiet X.id after :=
    ((quiet_start X.id numShards evm).run unused reached).step leaves recorded
  constructor
  · intro excluded produces
    -- cut the run at the first block production
    obtain ⟨mid, more, rfl, first⟩ := List.eq_append_cons_of_mem produces
    obtain ⟨net, early, late⟩ := run_append_eq_some.1 ran
    obtain ⟨net', stepped, -⟩ := run_cons_eq_some.1 late
    have queued := mem_pending_run first (failed_is_queued job failed recorded) early
    have ordered : X.id ∈ net'.service.chain.awaitingVotes := by
      cases stepped
      show X.id ∈ net.service.produceBlock.2.chain.awaitingVotes
      rw [net.service.chain_produceBlock]
      have awaited := awaiting_of_produced queued
      exact awaited
    refine (excluded (mid ++ [.produce]) more net' (by simp) ?_).unawaited ordered
    exact run_concat_eq_some.2 ⟨net, early, stepped⟩
  · rintro none_ mid more net rfl early
    refine (quiet.run (along_iff.2 ?_) early).takesNoPart
    rintro pre' a post' s rfl - rfl
    exact absurd (by simp) none_

namespace RevertedCallPole

def alice : Address := 0x100
def carol : Address := 0x301

def funded : EVMState := ⟨fun a => if a = alice then 10 else 0, fun _ _ => 0, fun _ => []⟩

/-- Every call reverts. -/
def reverting : Engines where
  vm := ⟨fun e _ _ _ _ _ => .ok e⟩
  simulateCall := fun _ _ _ _ _ _ => .error ""
  evmCall := fun _ _ _ _ _ => .done ⟨0, some "execution reverted"⟩

def emptyWorld : World where
  numShards := 2
  fetchState := fun _ _ => .ok ⟨none, 0, [], 0⟩
  getStorageAt := fun _ _ _ => .ok 0
  keccak256Hash := fun _ => 0

def payCarol : CrossShardTx where
  id := "tx-1"
  fromShard := 0
  fromAddr := alice
  toAddr := carol
  value := some 4
  rwSet := [⟨carol, ⟨1⟩, [], []⟩]

def orderBlock : OrchestratorShardBlock := ⟨1, ∅, [failedTx payCarol "execution reverted"]⟩
def commitBlock : OrchestratorShardBlock := ⟨2, (∅ : AList _).insert "tx-1" true, []⟩

def recording : List Action := [.call "" payCarol, .simulate emptyWorld]

def committing : List Action :=
  [.deliver 0 orderBlock, .deliver 1 orderBlock, .shardProduce 0 (some 0), .shardProduce 1 (some 0),
    .report 0 1 ((∅ : AList _).insert "tx-1" true), .report 1 1 ((∅ : AList _).insert "tx-1" true),
    .produce, .deliver 0 commitBlock, .deliver 1 commitBlock, .shardProduce 0 (some 0),
    .shardProduce 1 (some 0)]

def start : Cluster := Cluster.start 2 fun _ => funded

end RevertedCallPole

open RevertedCallPole in
/-- The reverted call is ordered, awaited and committed; four units move from `alice` to
`carol`. -/
theorem reverted_call_moves_value :
    (runSimulation (start.service.world emptyWorld) reverting.evmCall payCarol).1 =
        .onError (failedTx payCarol "execution reverted") ∧
      (∃ net, run (Cluster.step reverting) start (recording ++ [.produce]) = some net ∧
        "tx-1" ∈ net.service.chain.awaitingVotes) ∧
      ∃ net, run (Cluster.step reverting) start (recording ++ .produce :: committing) = some net ∧
        (∃ block ∈ net.service.chain.blocks, block.tpcResult.lookup "tx-1" = some true) ∧
        (net.shards 0).evmState.balance alice = 6 ∧ (net.shards 1).evmState.balance carol = 4 := by
  refine ⟨by decide +kernel, ⟨_, rfl, by decide +kernel⟩, ⟨_, rfl, ?_, ?_, ?_⟩⟩
  · decide +kernel
  · decide +kernel
  · decide +kernel

open RevertedCallPole in
/-- Before the next block nothing happens for it. -/
theorem reverted_call_waits :
    ∃ net, run (Cluster.step reverting) start (recording ++ [.shardProduce 0 (some 0)]) = some net ∧
      TakesNoPart "tx-1" net := by
  refine ⟨_, rfl, ?_⟩
  refine (failed_simulation_excluded_iff reverting 2 (fun _ => funded) [.call "" payCarol]
    [.shardProduce 0 (some 0)] _ _ _ emptyWorld payCarol [] "execution reverted" rfl ?_ rfl ?_ rfl
    rfl).2 (by simp) _ [] _ (List.append_nil _).symm rfl
  · refine ⟨fun other => ?_, fun _ _ => trivial⟩
    cases other
  · decide +kernel

end CrossShard.Network
