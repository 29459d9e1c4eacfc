/-
# Shard.Machine -- the runs of one shard, one effect at a time

The calls that change a shard are `processOrchestratorBlock`, a local submission and
`ProduceBlock`.  `Event` cuts them into their effects: one decided transaction, one
ordered transaction, one executed transaction.  A `Node` is the shard between two effects,
and inside `ProduceBlock` it carries the transactions still to execute.

Every call is a run of its events (`processOrchestratorBlock_run`, `produceBlock_run`), so
what holds of every run of events holds of every interleaving of calls, in the states
between them and in the states inside block production.

`Taken` lists what an event can do, with the checks the code made on the way.
-/
import CrossShard.Library.Run
import CrossShard.Shard.Tables

namespace CrossShard.Shard

set_option autoImplicit false

open CrossShard.Library CrossShard.Protocol

/-- One effect of a call on the shard.  `commitError` is a failed `EVMState.Commit`. -/
inductive Event where
  | decision (txID : TxID) (committed : Bool)
  | order (tx : CrossShardTx)
  | advance (height : Nat)
  | submit (tx : Transaction)
  | beginBlock
  | execute (tx : Transaction)
  | commitBlock (stateRoot : Hash)
  | commitError
  deriving DecidableEq

/-- The loop of `ProduceBlock`: what is left of the sorted queue, and `successfulTxs`. -/
structure Work where
  remaining : List Transaction
  successful : List Transaction

structure Node where
  chain : Chain
  evm : EVMState
  work : Option Work

namespace Node

def start (shardID : Int) (evm : EVMState) : Node := ⟨Chain.newChain shardID, evm, none⟩

/-- What waits for execution: the queue, or during block production what is left of it. -/
def outstanding (n : Node) : List Transaction :=
  match n.work with
  | none => n.chain.currentTxs
  | some work => work.remaining

theorem outstanding_of_idle {n : Node} (idle : n.work = none) :
    n.outstanding = n.chain.currentTxs := by
  simp only [outstanding, idle]

theorem outstanding_of_busy {n : Node} {remaining successful : List Transaction}
    (busy : n.work = some ⟨remaining, successful⟩) : n.outstanding = remaining := by
  simp only [outstanding, busy]

/-- What the node's blocks and the block under production include, in execution order. -/
def included (n : Node) : List Transaction :=
  n.chain.blocks.flatMap StateShardBlock.txOrdering ++
    (n.work.map Work.successful).getD []

/-- A block of this shard carries a YES vote on `txID`. -/
def VotedYes (n : Node) (txID : TxID) : Prop :=
  ∃ block ∈ n.chain.blocks, block.tpcPrepare.get txID = some true

end Node

/-- The shard after one event, unless the event cannot happen here or ends in a panic. -/
def step (vm : VM) (n : Node) (e : Event) : Option Node :=
  match n.work, e with
  | none, .decision txID committed =>
      some { n with chain := n.chain.processResult ⟨txID, committed⟩ }
  | none, .order tx => some { n with chain := n.chain.processOrder tx }
  | none, .advance height => some { n with chain := n.chain.setLastOrchestratorHeight height }
  | none, .submit tx =>
      if tx.txType = .localTx ∧ tx.crossShardTxID = "" then
        some { n with chain := n.chain.addTx tx }
      else none
  | none, .beginBlock =>
      some { n with work := some ⟨Chain.sortTransactionsByPriority n.chain.currentTxs, []⟩ }
  | some ⟨next :: rest, successful⟩, .execute tx =>
      if tx = next then
        (BlockState.executeOne vm ⟨n.chain, n.evm, successful⟩ tx).map fun s =>
          ⟨s.chain, s.evm, some ⟨rest, s.successfulTxs⟩⟩
      else none
  | some ⟨[], successful⟩, .commitBlock stateRoot =>
      some ⟨(BlockState.finish ⟨n.chain, n.evm, successful⟩ stateRoot).2, n.evm, none⟩
  | some ⟨[], _⟩, .commitError => some { n with work := none }
  | _, _ => none

/-! ## Calls are runs -/

/-- The events of one call of `processOrchestratorBlock`. -/
def blockEvents (c : Chain) (block : OrchestratorShardBlock) : List Event :=
  if block.height ≤ c.lastOrchestratorHeight then []
  else
    block.tpcResult.entries.map (fun r => .decision r.1 r.2) ++
      block.ctToOrder.map .order ++ [.advance block.height]

/-- The events of one call of `ProduceBlock`. -/
def produceEvents (c : Chain) (commit : Option Hash) : List Event :=
  .beginBlock :: (Chain.sortTransactionsByPriority c.currentTxs).map .execute ++
    [match commit with
      | some stateRoot => .commitBlock stateRoot
      | none => .commitError]

theorem run_decisions (vm : VM) (c : Chain) (evm : EVMState) (results : List (Σ _ : TxID, Bool)) :
    run (step vm) ⟨c, evm, none⟩ (results.map fun r => .decision r.1 r.2) =
      some ⟨results.foldl Chain.processResult c, evm, none⟩ := by
  induction results generalizing c with
  | nil => rfl
  | cons r results ih => exact ih (c.processResult r)

theorem run_orders (vm : VM) (c : Chain) (evm : EVMState) (txs : List CrossShardTx) :
    run (step vm) ⟨c, evm, none⟩ (txs.map .order) =
      some ⟨txs.foldl Chain.processOrder c, evm, none⟩ := by
  induction txs generalizing c with
  | nil => rfl
  | cons tx txs ih => exact ih (c.processOrder tx)

/-- **Processing an orchestrator block is the run of its events.** -/
theorem processOrchestratorBlock_run (vm : VM) (c : Chain) (evm : EVMState)
    (block : OrchestratorShardBlock) :
    run (step vm) ⟨c, evm, none⟩ (blockEvents c block) =
      some ⟨c.processOrchestratorBlock block, evm, none⟩ := by
  unfold blockEvents Chain.processOrchestratorBlock
  split
  · rfl
  · rw [run_append, run_append, run_decisions, Option.bind_some, run_orders]
    rfl

theorem executeAll_eq_run (vm : VM) (s : BlockState) (txs : List Transaction) :
    BlockState.executeAll vm s txs = run (BlockState.executeOne vm) s txs := by
  induction txs generalizing s with
  | nil => rfl
  | cons tx txs ih => simp only [BlockState.executeAll, run, ih]

theorem executeAll_append (vm : VM) (s : BlockState) (txs txs' : List Transaction) :
    BlockState.executeAll vm s (txs ++ txs') =
      (BlockState.executeAll vm s txs).bind fun s' => BlockState.executeAll vm s' txs' := by
  simp only [executeAll_eq_run, run_append]

theorem run_executions (vm : VM) (s : BlockState) (txs : List Transaction) :
    run (step vm) ⟨s.chain, s.evm, some ⟨txs, s.successfulTxs⟩⟩ (txs.map .execute) =
      (BlockState.executeAll vm s txs).map fun s' =>
        ⟨s'.chain, s'.evm, some ⟨[], s'.successfulTxs⟩⟩ := by
  induction txs generalizing s with
  | nil => rfl
  | cons tx txs ih =>
      simp only [List.map_cons, run, step, if_true, BlockState.executeAll]
      cases s.executeOne vm tx with
      | none => rfl
      | some s' => exact ih s'

/-- **Producing a block is the run of its events.** -/
theorem produceBlock_run (vm : VM) (c : Chain) (evm : EVMState) (commit : Option Hash) :
    run (step vm) ⟨c, evm, none⟩ (produceEvents c commit) =
      (c.produceBlock vm evm commit).map fun p => ⟨p.chain, p.evm, none⟩ := by
  have loop := run_executions vm ⟨c, evm, []⟩ (Chain.sortTransactionsByPriority c.currentTxs)
  unfold produceEvents Chain.produceBlock
  rw [List.cons_append]
  simp only [run, step, Option.bind_some, run_append, loop, Option.map_map]
  cases BlockState.executeAll vm ⟨c, evm, []⟩ (Chain.sortTransactionsByPriority c.currentTxs) with
  | none => rfl
  | some s => cases commit <;> rfl

/-- **A local submission queues one local transaction or changes nothing.** -/
theorem handleTxSubmit_cases (simulate : Server.SimulateCall) (s : Server) (txID : TxID)
    (req : Server.TxSubmitRequest) :
    (s.handleTxSubmit simulate txID req).2 = s ∨
      ∃ tx : Transaction, tx.txType = .localTx ∧ tx.crossShardTxID = "" ∧
        (s.handleTxSubmit simulate txID req).2 = { s with chain := s.chain.addTx tx } := by
  unfold Server.handleTxSubmit
  split
  · exact Or.inl rfl
  · rename_i value parsed
    dsimp only
    generalize (if req.gas = 0 then Server.defaultGasLimit else req.gas) = gas
    split
    · exact Or.inl rfl
    · split
      · exact Or.inl rfl
      · split
        · exact Or.inl rfl
        · split
          · exact Or.inl rfl
          · exact Or.inl rfl
          · split
            · exact Or.inr ⟨Server.localTx req value gas, rfl, rfl, rfl⟩
            · exact Or.inl rfl

/-! ## What a turn of the loop can do -/

/-- The outcomes of one turn of the loop of `ProduceBlock`, with the checks that led to them. -/
inductive Executed (vm : VM) (s : BlockState) (tx : Transaction) : BlockState → Prop
  | skipped (reason : (s.chain.checkLocalTxLockConflict tx).isSome ∨
        tx.txType ≠ .lock ∧ ∃ msg, s.evm.executeTx vm tx = .error msg) :
      Executed vm s tx s
  | granted (kind : tx.txType = .lock) (chain : Chain)
      (lock : Chain.Granted s.chain s.evm tx chain)
      (result : s.chain.executeLock s.evm tx = (chain, true)) :
      Executed vm s tx ⟨chain, s.evm, s.successfulTxs ++ [tx]⟩
  | refused (kind : tx.txType = .lock) (chain : Chain) (lock : Chain.Refused s.chain tx chain)
      (result : s.chain.executeLock s.evm tx = (chain, false)) :
      Executed vm s tx ⟨chain, s.evm, s.successfulTxs⟩
  | applied (kind : tx.txType ≠ .lock) (free : s.chain.checkLocalTxLockConflict tx = none)
      (evm : EVMState) (ran : s.evm.executeTx vm tx = .ok evm) :
      Executed vm s tx ⟨s.chain.cleanupAfterExecution tx, evm, s.successfulTxs ++ [tx]⟩

/-- **Inversion of a turn.**  A failed transaction that is no `Lock` has nothing to clean up. -/
theorem executed_of_executeOne {vm : VM} {s s' : BlockState} {tx : Transaction}
    (ran : s.executeOne vm tx = some s') : Executed vm s tx s' := by
  unfold BlockState.executeOne at ran
  split at ran
  · rename_i conflict
    cases ran
    exact .skipped (Or.inl conflict)
  · rename_i free
    split at ran
    · rename_i kind
      rcases s.chain.executeLock_cases s.evm kind with ⟨c', result, lock⟩ | ⟨c', result, lock⟩
      · rw [result] at ran
        cases ran
        exact .granted kind c' lock result
      · rw [result] at ran
        cases ran
        exact .refused kind c' lock result
    · rename_i kind
      split at ran
      · cases ran
      · rename_i msg failure
        cases ran
        have same : s.chain.cleanupAfterFailure tx = s.chain := by
          unfold Chain.cleanupAfterFailure
          split
          · rename_i lock
            exact absurd lock kind
          · rfl
        rw [same]
        exact .skipped (Or.inr ⟨kind, msg, failure⟩)
      · rename_i evm ok
        cases ran
        exact .applied kind (by simpa using free) evm ok

/-- Each outcome is the one the turn takes. -/
theorem Executed.executeOne {vm : VM} {s s' : BlockState} {tx : Transaction}
    (done : Executed vm s tx s') : s.executeOne vm tx = some s' := by
  have unblocked : tx.txType = .lock → s.chain.checkLocalTxLockConflict tx = none := fun kind => by
    simp [Chain.checkLocalTxLockConflict, kind]
  cases done with
  | skipped reason =>
      by_cases conflict : (s.chain.checkLocalTxLockConflict tx).isSome
      · rw [BlockState.executeOne, if_pos conflict]
      · obtain ⟨kind, msg, failure⟩ := reason.resolve_left conflict
        rw [BlockState.executeOne, if_neg conflict, if_neg kind, failure]
        simp [Chain.cleanupAfterFailure]
  | granted kind chain lock result =>
      rw [BlockState.executeOne, unblocked kind, Option.isSome_none, if_neg Bool.false_ne_true,
        if_pos kind, result]
      rfl
  | refused kind chain lock result =>
      rw [BlockState.executeOne, unblocked kind, Option.isSome_none, if_neg Bool.false_ne_true,
        if_pos kind, result]
      rfl
  | applied kind free evm ran =>
      rw [BlockState.executeOne, free, Option.isSome_none, if_neg Bool.false_ne_true, if_neg kind,
        ran]

theorem Executed.steady {vm : VM} {s s' : BlockState} {tx : Transaction} (done : Executed vm s tx s') :
    s'.chain.steady = s.chain.steady := by
  cases done with
  | skipped reason => rfl
  | granted kind chain lock result => exact lock.steady
  | refused kind chain lock result => exact lock.steady
  | applied kind free evm ran => exact s.chain.steady_cleanupAfterExecution tx

theorem steady_executeAll {vm : VM} {txs : List Transaction} {s s' : BlockState}
    (ran : BlockState.executeAll vm s txs = some s') : s'.chain.steady = s.chain.steady := by
  rw [executeAll_eq_run] at ran
  refine run_preserves (P := fun _ => True) (fun t => t.chain.steady = s.chain.steady) ?_ rfl
    (fun _ _ => trivial) ran
  exact fun _ _ _ before _ turn => (executed_of_executeOne turn).steady.trans before

/-! ## What an event can do -/

/-- The outcomes of an event at `n`, with the checks that led to them. -/
inductive Taken (vm : VM) (n : Node) : Event → Node → Prop
  | stale (txID : TxID) (committed : Bool) (idle : n.work = none)
      (processed : n.chain.isCommitProcessed txID = true) :
      Taken vm n (.decision txID committed) n
  | decided (txID : TxID) (committed : Bool) (idle : n.work = none)
      (fresh : n.chain.isCommitProcessed txID = false) :
      Taken vm n (.decision txID committed)
        { n with chain :=
          { n.chain with
            processedCommits := n.chain.processedCommits.set txID true
            currentTxs := n.chain.currentTxs ++ n.chain.decisionTxs txID committed } }
  | ordered (tx : CrossShardTx) (idle : n.work = none)
      (involved : n.chain.shardID ∈ tx.involvedShards) :
      Taken vm n (.order tx)
        { n with chain := (n.chain.noteOrder tx).addTx (Chain.lockTx n.chain.shardID tx) }
  | passed (tx : CrossShardTx) (idle : n.work = none)
      (foreign : n.chain.shardID ∉ tx.involvedShards) :
      Taken vm n (.order tx) n
  | advanced (height : Nat) (idle : n.work = none) :
      Taken vm n (.advance height) { n with chain := n.chain.setLastOrchestratorHeight height }
  | submitted (tx : Transaction) (idle : n.work = none) (kind : tx.txType = .localTx)
      (unnamed : tx.crossShardTxID = "") :
      Taken vm n (.submit tx) { n with chain := n.chain.addTx tx }
  | begun (idle : n.work = none) :
      Taken vm n .beginBlock
        { n with work := some ⟨Chain.sortTransactionsByPriority n.chain.currentTxs, []⟩ }
  | skipped (tx : Transaction) (rest successful : List Transaction)
      (busy : n.work = some ⟨tx :: rest, successful⟩)
      (reason : (n.chain.checkLocalTxLockConflict tx).isSome ∨
        tx.txType ≠ .lock ∧ ∃ msg, n.evm.executeTx vm tx = .error msg) :
      Taken vm n (.execute tx) { n with work := some ⟨rest, successful⟩ }
  | granted (tx : Transaction) (rest successful : List Transaction)
      (busy : n.work = some ⟨tx :: rest, successful⟩) (kind : tx.txType = .lock) (chain : Chain)
      (lock : Chain.Granted n.chain n.evm tx chain) :
      Taken vm n (.execute tx) ⟨chain, n.evm, some ⟨rest, successful ++ [tx]⟩⟩
  | refused (tx : Transaction) (rest successful : List Transaction)
      (busy : n.work = some ⟨tx :: rest, successful⟩) (kind : tx.txType = .lock) (chain : Chain)
      (lock : Chain.Refused n.chain tx chain)
      (result : n.chain.executeLock n.evm tx = (chain, false)) :
      Taken vm n (.execute tx) ⟨chain, n.evm, some ⟨rest, successful⟩⟩
  | applied (tx : Transaction) (rest successful : List Transaction)
      (busy : n.work = some ⟨tx :: rest, successful⟩) (kind : tx.txType ≠ .lock)
      (free : n.chain.checkLocalTxLockConflict tx = none) (evm : EVMState)
      (ran : n.evm.executeTx vm tx = .ok evm) :
      Taken vm n (.execute tx)
        ⟨n.chain.cleanupAfterExecution tx, evm, some ⟨rest, successful ++ [tx]⟩⟩
  | committed (stateRoot : Hash) (successful : List Transaction)
      (busy : n.work = some ⟨[], successful⟩) :
      Taken vm n (.commitBlock stateRoot)
        ⟨(BlockState.finish ⟨n.chain, n.evm, successful⟩ stateRoot).2, n.evm, none⟩
  | failed (successful : List Transaction) (busy : n.work = some ⟨[], successful⟩) :
      Taken vm n .commitError { n with work := none }

/-- What executes was waiting. -/
theorem Taken.waits {vm : VM} {n n' : Node} {tx : Transaction}
    (taken : Taken vm n (.execute tx) n') : tx ∈ n.outstanding := by
  cases taken with
  | skipped _ rest successful busy reason => simp [Node.outstanding_of_busy busy]
  | granted _ rest successful busy kind chain lock => simp [Node.outstanding_of_busy busy]
  | refused _ rest successful busy kind chain lock result => simp [Node.outstanding_of_busy busy]
  | applied _ rest successful busy kind free evm ran => simp [Node.outstanding_of_busy busy]

theorem taken_execute {vm : VM} {n : Node} {tx : Transaction} {rest successful : List Transaction}
    (busy : n.work = some ⟨tx :: rest, successful⟩) {s : BlockState}
    (ran : BlockState.executeOne vm ⟨n.chain, n.evm, successful⟩ tx = some s) :
    Taken vm n (.execute tx) ⟨s.chain, s.evm, some ⟨rest, s.successfulTxs⟩⟩ := by
  cases executed_of_executeOne ran with
  | skipped reason => exact .skipped tx rest successful busy reason
  | granted kind chain lock result => exact .granted tx rest successful busy kind chain lock
  | refused kind chain lock result => exact .refused tx rest successful busy kind chain lock result
  | applied kind free evm ok => exact .applied tx rest successful busy kind free evm ok

/-- **Inversion.**  Every step is one of the listed outcomes. -/
theorem taken_of_step {vm : VM} {n n' : Node} {e : Event} (stepped : step vm n e = some n') :
    Taken vm n e n' := by
  unfold step at stepped
  split at stepped
  · rename_i txID committed idle
    cases stepped
    cases processed : n.chain.isCommitProcessed txID with
    | true =>
        rw [Chain.processResult_of_processed processed]
        exact .stale txID committed idle processed
    | false =>
        rw [Chain.processResult_of_fresh processed]
        exact .decided txID committed idle processed
  · rename_i tx idle
    cases stepped
    by_cases involved : n.chain.shardID ∈ tx.involvedShards
    · rw [Chain.processOrder_of_involved involved]
      exact .ordered tx idle involved
    · rw [Chain.processOrder_of_foreign involved]
      exact .passed tx idle involved
  · rename_i height idle
    cases stepped
    exact .advanced height idle
  · rename_i tx idle
    split at stepped
    · rename_i accepted
      cases stepped
      exact .submitted tx idle accepted.1 accepted.2
    · cases stepped
  · rename_i idle
    cases stepped
    exact .begun idle
  · rename_i next rest successful tx busy
    split at stepped
    · rename_i same
      subst same
      obtain ⟨s, ran, rfl⟩ := Option.map_eq_some_iff.1 stepped
      exact taken_execute busy ran
    · cases stepped
  · rename_i successful stateRoot busy
    cases stepped
    exact .committed stateRoot successful busy
  · rename_i successful busy
    cases stepped
    exact .failed successful busy
  · cases stepped

end CrossShard.Shard
