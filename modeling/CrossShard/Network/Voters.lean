/-
# Network.Voters -- the shards that are waited for are the shards that vote

The set of voters is computed twice: by `InvolvedShards` on the orchestrator, and on the shard by
the branches of `processOrchestratorBlock` that queue a `Lock` and by the paths through
`ProduceBlock` that record its vote.

* `executeAll_without`, `executeAll_once`: what the execution loop does to the vote on one ID.
* `Ballot`: a vote that no block has reported belongs to a `Lock` that is still queued.
* `voters_are_expected`: the next block of a shard reports a vote on exactly those transactions of
  an orchestrator block that involve it, and a YES on those whose `Lock` it includes.
-/
import CrossShard.Orchestrator.Lifecycle
import CrossShard.Shard.Provenance

namespace CrossShard.Shard

set_option autoImplicit false

open CrossShard.Library CrossShard.Protocol CrossShard.Orchestrator

instance (txID : TxID) (tx : Transaction) : Decidable (LockOf txID tx) :=
  inferInstanceAs (Decidable (_ ∧ _))

/-! ## Votes during block production -/

section Execution

variable {vm : VM} {s s' : BlockState} {tx : Transaction} {x : TxID}

/-- A transaction that is not a `Lock` of `x` leaves the vote on `x` alone. -/
theorem Taken.vote_other {n n' : Node} (taken : Taken vm n (.execute tx) n')
    (other : ¬LockOf x tx) :
    n'.chain.prepares.get x = n.chain.prepares.get x ∧
      (n'.work.map fun w => w.successful.filter (LockOf x ·)) =
        n.work.map fun w => w.successful.filter (LockOf x ·) := by
  have unlisted : ∀ successful : List Transaction,
      (successful ++ [tx]).filter (LockOf x ·) = successful.filter (LockOf x ·) := by
    intro successful
    simp [List.filter_append, other]
  cases taken with
  | skipped _ rest successful busy reason => exact ⟨rfl, by rw [busy]; rfl⟩
  | granted _ rest successful busy kind chain lock =>
      have different : x ≠ tx.crossShardTxID := fun same => other ⟨kind, same.symm⟩
      refine ⟨?_, by rw [busy, Option.map_some, Option.map_some, unlisted]⟩
      rw [lock.chain]
      dsimp only
      split
      · rfl
      · rw [FMap.get_set, if_neg different]
  | refused _ rest successful busy kind chain lock result =>
      have different : x ≠ tx.crossShardTxID := fun same => other ⟨kind, same.symm⟩
      refine ⟨?_, by rw [busy]; rfl⟩
      show chain.prepares.get x = _
      rw [lock.vote, FMap.get_set, if_neg different]
  | applied _ rest successful busy kind free evm ran =>
      refine ⟨?_, by rw [busy, Option.map_some, Option.map_some, unlisted]⟩
      show (n.chain.cleanupAfterExecution tx).prepares.get x = _
      rw [Chain.prepares_cleanupAfterExecution _ kind]

/-- The `Lock` of `x` votes, and is included with a YES. -/
theorem Taken.vote_lock {n n' : Node} (taken : Taken vm n (.execute tx) n') (named : x ≠ "")
    (own : LockOf x tx) :
    ∃ vote, n'.chain.prepares.get x = some vote ∧
      n'.work.map Work.successful =
        n.work.map fun w => w.successful ++ if vote then [tx] else [] := by
  obtain ⟨kind, rfl⟩ := own
  cases taken with
  | skipped _ rest successful busy reason =>
      rcases reason with conflict | ⟨other, -⟩
      · simp [Chain.checkLocalTxLockConflict, kind] at conflict
      · exact absurd kind other
  | granted _ rest successful busy _ chain lock =>
      refine ⟨true, ?_, by rw [busy]; rfl⟩
      rw [lock.chain]
      simp [named]
  | refused _ rest successful busy _ chain lock result =>
      refine ⟨false, ?_, by rw [busy]; simp⟩
      show chain.prepares.get _ = _
      rw [lock.vote]
      simp
  | applied _ rest successful busy other free evm ran => exact absurd kind other

theorem executeOne_other (other : ¬LockOf x tx) (ran : s.executeOne vm tx = some s') :
    s'.chain.prepares.get x = s.chain.prepares.get x ∧
      s'.successfulTxs.filter (LockOf x ·) = s.successfulTxs.filter (LockOf x ·) := by
  have busy : Node.work ⟨s.chain, s.evm, some ⟨[tx], s.successfulTxs⟩⟩ =
      some ⟨[tx], s.successfulTxs⟩ := rfl
  obtain ⟨votes, listed⟩ := (taken_execute busy ran).vote_other other
  exact ⟨votes, Option.some.inj listed⟩

theorem executeOne_lock (named : x ≠ "") (own : LockOf x tx)
    (ran : s.executeOne vm tx = some s') :
    ∃ vote, s'.chain.prepares.get x = some vote ∧
      s'.successfulTxs = s.successfulTxs ++ if vote then [tx] else [] := by
  have busy : Node.work ⟨s.chain, s.evm, some ⟨[tx], s.successfulTxs⟩⟩ =
      some ⟨[tx], s.successfulTxs⟩ := rfl
  obtain ⟨vote, votes, listed⟩ := (taken_execute busy ran).vote_lock named own
  exact ⟨vote, votes, Option.some.inj listed⟩

/-- Without a `Lock` of `x`, the loop leaves the vote on `x` alone. -/
theorem executeAll_without {txs : List Transaction} {s : BlockState}
    (none : ∀ tx ∈ txs, ¬LockOf x tx) (ran : BlockState.executeAll vm s txs = some s') :
    s'.chain.prepares.get x = s.chain.prepares.get x ∧
      (s'.successfulTxs.filter (LockOf x ·) = s.successfulTxs.filter (LockOf x ·)) := by
  rw [executeAll_eq_run] at ran
  refine run_preserves (P := fun tx => ¬LockOf x tx) (fun t => t.chain.prepares.get x =
      s.chain.prepares.get x ∧
    (t.successfulTxs.filter (LockOf x ·) = s.successfulTxs.filter (LockOf x ·))) ?_ ⟨rfl, rfl⟩ none ran
  intro t tx t' before other turn
  obtain ⟨votes, listed⟩ := executeOne_other other turn
  exact ⟨votes.trans before.1, listed.trans before.2⟩

/-- **With one `Lock` of `x`**, the loop records a vote on `x`, and lists the `Lock` with a YES. -/
theorem executeAll_once {txs : List Transaction} {lock : Transaction} (named : x ≠ "")
    (once : txs.filter (LockOf x ·) = [lock]) (ran : BlockState.executeAll vm s txs = some s')
    (start : s.successfulTxs.filter (LockOf x ·) = []) :
    ∃ vote, s'.chain.prepares.get x = some vote ∧
      (lock ∈ s'.successfulTxs ↔ vote = true) := by
  obtain ⟨before, after, rfl, unlocked, own, later⟩ := List.filter_eq_cons_iff.1 once
  have own : LockOf x lock := by simpa using own
  have unlocked' : ∀ tx ∈ after, ¬LockOf x tx := by simpa [List.filter_eq_nil_iff] using later
  rw [executeAll_append] at ran
  obtain ⟨s₁, first, rest⟩ := Option.bind_eq_some_iff.1 ran
  obtain ⟨s₂, locked, last⟩ := Option.bind_eq_some_iff.1 rest
  obtain ⟨-, listed₁⟩ := executeAll_without (fun tx member => by simpa using unlocked tx member)
    first
  obtain ⟨vote, votes, listed₂⟩ := executeOne_lock named own locked
  obtain ⟨votes', listed₃⟩ := executeAll_without unlocked' last
  refine ⟨vote, votes'.trans votes, ?_⟩
  have all : s'.successfulTxs.filter (LockOf x ·) = if vote then [lock] else [] := by
    rw [listed₃, listed₂, List.filter_append, listed₁, start, List.nil_append]
    cases vote
    · rfl
    · simp [own]
  have listed : lock ∈ s'.successfulTxs ↔ lock ∈ s'.successfulTxs.filter (LockOf x ·) := by
    simp [own]
  rw [listed, all]
  cases vote <;> simp

end Execution

/-! ## Votes between blocks -/

/-- An event other than a committed block only adds to the queue. -/
theorem Taken.currentTxs_eq {vm : VM} {n n' : Node} {e : Event} (taken : Taken vm n e n')
    (uncommitted : ∀ stateRoot, e ≠ .commitBlock stateRoot) :
    n'.chain.currentTxs = n.chain.currentTxs ++ added n e := by
  have same : ∀ {chain : Chain}, chain.steady = n.chain.steady →
      chain.currentTxs = n.chain.currentTxs ++ [] := fun {chain} steady => by
    rw [List.append_nil]
    exact congrArg Chain.Steady.currentTxs steady
  cases taken with
  | stale txID committed idle processed => simp [added, processed]
  | decided txID committed idle fresh => simp [added, fresh]
  | ordered t idle involved => simp [added, involved, Chain.addTx, currentTxs_noteOrder]
  | passed t idle foreign => simp [added, foreign]
  | submitted tx idle kind unnamed => simp [added, Chain.addTx]
  | granted tx rest successful busy kind chain lock => exact same lock.steady
  | refused tx rest successful busy kind chain lock result => exact same lock.steady
  | applied tx rest successful busy kind free evm ran =>
      exact same (n.chain.steady_cleanupAfterExecution tx)
  | committed stateRoot successful busy => exact absurd rfl (uncommitted stateRoot)
  | _ => exact (List.append_nil _).symm

/-- Votes that no block has reported belong to queued `Lock`s. -/
structure Ballot (n : Node) : Prop where
  cast : ∀ x, n.chain.prepares.get x ≠ none → ∃ tx ∈ n.chain.currentTxs, LockOf x tx
  work : ∀ w, n.work = some w → ∀ tx ∈ w.remaining, tx ∈ n.chain.currentTxs

theorem ballot_start (shardID : Int) (evm : EVMState) : Ballot (Node.start shardID evm) where
  cast x voted := absurd (FMap.get_empty x) voted
  work w busy := by cases busy

/-- Executing takes the first of the remaining transactions. -/
theorem Taken.executed_work {vm : VM} {n n' : Node} {tx : Transaction}
    (taken : Taken vm n (.execute tx) n') :
    ∃ rest successful successful', n.work = some ⟨tx :: rest, successful⟩ ∧
      n'.work = some ⟨rest, successful'⟩ := by
  cases taken with
  | skipped _ rest successful busy reason => exact ⟨rest, _, _, busy, rfl⟩
  | granted _ rest successful busy kind chain lock => exact ⟨rest, _, _, busy, rfl⟩
  | refused _ rest successful busy kind chain lock result => exact ⟨rest, _, _, busy, rfl⟩
  | applied _ rest successful busy kind free evm ran => exact ⟨rest, _, _, busy, rfl⟩

theorem Ballot.execute {vm : VM} {n n' : Node} {tx : Transaction} (ballot : Ballot n)
    (taken : Taken vm n (.execute tx) n') : Ballot n' := by
  have queue : n'.chain.currentTxs = n.chain.currentTxs ++ [] := taken.currentTxs_eq nofun
  rw [List.append_nil] at queue
  obtain ⟨rest, successful, successful', busy, busy'⟩ := taken.executed_work
  have waits := ballot.work _ busy
  refine ⟨fun x voted => ?_, fun w work t member => ?_⟩
  · rw [queue]
    by_cases own : LockOf x tx
    · exact ⟨tx, waits tx List.mem_cons_self, own⟩
    · rw [(taken.vote_other own).1] at voted
      exact ballot.cast x voted
  · rw [busy'] at work
    cases work
    rw [queue]
    exact waits t (List.mem_cons_of_mem _ member)

theorem Ballot.step {vm : VM} {n n' : Node} {e : Event} (ballot : Ballot n)
    (taken : Taken vm n e n') : Ballot n' := by
  have queued : ∀ (chain : Chain) (txs : List Transaction), n.work = none →
      chain.prepares = n.chain.prepares → chain.currentTxs = n.chain.currentTxs ++ txs →
      Ballot { n with chain := chain } := by
    intro chain txs idle votes queue
    refine ⟨fun x voted => ?_, fun w busy => ?_⟩
    · rw [votes] at voted
      obtain ⟨tx, member, own⟩ := ballot.cast x voted
      refine ⟨tx, ?_, own⟩
      rw [queue]
      exact List.mem_append_left _ member
    · rw [idle] at busy
      cases busy
  cases e with
  | execute tx => exact ballot.execute taken
  | decision txID committed =>
      cases taken with
      | stale _ _ idle processed => exact ballot
      | decided _ _ idle fresh => exact queued _ _ idle rfl rfl
  | order t =>
      cases taken with
      | ordered _ idle involved =>
          refine queued _ [Chain.lockTx n.chain.shardID t] idle ?_ ?_
          · rw [Chain.noteOrder_eq]
            rfl
          · simp [Chain.addTx, currentTxs_noteOrder]
      | passed _ idle foreign => exact ballot
  | advance height =>
      cases taken with
      | advanced _ idle => exact queued _ [] idle rfl (List.append_nil _).symm
  | submit tx =>
      cases taken with
      | submitted _ idle kind unnamed => exact queued _ _ idle rfl rfl
  | beginBlock =>
      cases taken with
      | begun idle =>
          refine ⟨ballot.cast, fun w busy tx member => ?_⟩
          cases busy
          exact (byKey_perm (fun tx : Transaction => tx.txType.priority) _).mem_iff.1 member
  | commitBlock stateRoot =>
      cases taken with
      | committed _ successful busy =>
          refine ⟨fun x voted => absurd (FMap.get_empty x) voted, fun w busy' => ?_⟩
          cases busy'
  | commitError =>
      cases taken with
      | failed successful busy =>
          refine ⟨ballot.cast, fun w busy' => ?_⟩
          cases busy'

theorem ballot_of_run {vm : VM} {n n' : Node} {es : List Event} (ballot : Ballot n)
    (reached : run (step vm) n es = some n') : Ballot n' :=
  run_preserves (P := fun _ => True) Ballot
    (fun _ _ _ ballot _ stepped => ballot.step (taken_of_step stepped)) ballot (fun _ _ => trivial)
    reached

theorem shardID_of_run {vm : VM} {n n' : Node} {es : List Event}
    (reached : run (step vm) n es = some n') : n'.chain.shardID = n.chain.shardID :=
  run_preserves (P := fun _ => True) (fun m => m.chain.shardID = n.chain.shardID)
    (fun _ _ _ before _ stepped => (taken_of_step stepped).shardID_eq.trans before) rfl
    (fun _ _ => trivial) reached

/-! ## The `Lock`s in the queue -/

/-- The transactions with ID `x` that an event makes this shard lock. -/
def locking (shardID : Int) (x : TxID) (txs : List CrossShardTx) : List CrossShardTx :=
  txs.filter fun t => shardID ∈ t.involvedShards ∧ t.id = x

theorem locks_added {vm : VM} {n n' : Node} {e : Event} (taken : Taken vm n e n') (x : TxID) :
    (added n e).filter (LockOf x ·) =
      (locking n.chain.shardID x (ordered [e])).map (Chain.lockTx n.chain.shardID) := by
  unfold locking
  cases taken with
  | stale txID committed idle processed => simp [added, processed, ordered]
  | decided txID committed idle fresh =>
      simp only [added, fresh, Bool.false_eq_true, if_false, ordered]
      have none := @filter_lock_decisionTxs n.chain txID committed
      refine List.filter_eq_nil_iff.2 fun tx member own => ?_
      refine List.filter_eq_nil_iff.1 none tx member ?_
      simpa using (of_decide_eq_true own).1
  | ordered tx idle involved =>
      by_cases own : tx.id = x <;>
        simp [added, ordered, involved, LockOf, Chain.lockTx, Chain.crossTx, own]
  | passed tx idle foreign => simp [added, ordered, foreign]
  | submitted tx idle kind unnamed => simp [added, ordered, kind, LockOf]
  | _ => rfl

/-- Until the next block the queue gains the `Lock`s of what is ordered, in order. -/
theorem locks_of_run {vm : VM} {n n' : Node} {es : List Event} {x : TxID}
    (uncommitted : ∀ stateRoot, .commitBlock stateRoot ∉ es)
    (reached : run (step vm) n es = some n') :
    n'.chain.shardID = n.chain.shardID ∧
    n'.chain.currentTxs.filter (LockOf x ·) = n.chain.currentTxs.filter (LockOf x ·) ++
      (locking n.chain.shardID x (ordered es)).map (Chain.lockTx n.chain.shardID) := by
  induction es generalizing n with
  | nil =>
      cases reached
      exact ⟨rfl, (List.append_nil _).symm⟩
  | cons e es ih =>
      obtain ⟨m, stepped, rest⟩ := run_cons_eq_some.1 reached
      have taken := taken_of_step stepped
      have queue := taken.currentTxs_eq fun stateRoot same =>
        uncommitted stateRoot (same ▸ List.mem_cons_self)
      have split : ordered (e :: es) = ordered [e] ++ ordered es := ordered_append [e] es
      obtain ⟨shard, later⟩ := ih (fun stateRoot member =>
        uncommitted stateRoot (List.mem_cons_of_mem _ member)) rest
      rw [taken.shardID_eq] at shard later
      refine ⟨shard, ?_⟩
      rw [later, queue, List.filter_append, locks_added taken x, split, locking, locking, locking,
        List.filter_append, List.map_append, List.append_assoc]

theorem locking_of_distinct {shardID : Int} {txs : List CrossShardTx} {tx : CrossShardTx}
    (distinct : (txs.map CrossShardTx.id).Nodup) (member : tx ∈ txs) :
    locking shardID tx.id txs = if shardID ∈ tx.involvedShards then [tx] else [] := by
  have own : txs.filter (fun t => t.id = tx.id) = [tx] := by
    obtain ⟨pre, post, rfl⟩ := List.append_of_mem member
    rw [List.map_append, List.map_cons] at distinct
    obtain ⟨-, rest, apart⟩ := List.nodup_append.1 distinct
    have before : pre.filter (fun t => t.id = tx.id) = [] := by
      refine List.filter_eq_nil_iff.2 fun t listed same => ?_
      exact apart t.id (List.mem_map_of_mem listed) tx.id List.mem_cons_self (by simpa using same)
    have after : post.filter (fun t => t.id = tx.id) = [] := by
      refine List.filter_eq_nil_iff.2 fun t listed same => ?_
      refine (List.nodup_cons.1 rest).1 ?_
      rw [← of_decide_eq_true same]
      exact List.mem_map_of_mem listed
    simp [List.filter_append, before, after]
  have both : locking shardID tx.id txs =
      (txs.filter fun t => t.id = tx.id).filter fun t => shardID ∈ t.involvedShards := by
    rw [locking, List.filter_filter]
    exact List.filter_congr fun t _ => by simp
  rw [both, own]
  by_cases involved : shardID ∈ tx.involvedShards <;> simp [involved]

theorem ordered_blockEvents {c : Chain} {block : OrchestratorShardBlock}
    (new : c.lastOrchestratorHeight < block.height) :
    ordered (blockEvents c block) = block.ctToOrder := by
  unfold blockEvents
  rw [if_neg (by omega), ordered_append, ordered_append]
  simp [ordered, List.filterMap_map]

/-- What a new block of distinct IDs queues for one of its transactions. -/
theorem locks_processed {c : Chain} {block : OrchestratorShardBlock} {tx : CrossShardTx}
    (new : c.lastOrchestratorHeight < block.height)
    (distinct : (block.ctToOrder.map CrossShardTx.id).Nodup) (member : tx ∈ block.ctToOrder)
    (alone : ∀ t ∈ c.currentTxs, ¬LockOf tx.id t) :
    (c.processOrchestratorBlock block).shardID = c.shardID ∧
    (c.processOrchestratorBlock block).currentTxs.filter (LockOf tx.id ·) =
      if c.shardID ∈ tx.involvedShards then [Chain.lockTx c.shardID tx] else [] := by
  have ran := processOrchestratorBlock_run ⟨fun e _ _ _ _ _ => .ok e⟩ c
    ⟨fun _ => 0, fun _ _ => 0, fun _ => []⟩ block
  obtain ⟨shard, locks⟩ := locks_of_run (x := tx.id) (by
    intro stateRoot listed
    unfold blockEvents at listed
    split at listed
    · cases listed
    · simp at listed) ran
  have none : c.currentTxs.filter (LockOf tx.id ·) = [] := by
    simpa [List.filter_eq_nil_iff] using alone
  refine ⟨shard, locks.trans ?_⟩
  show c.currentTxs.filter _ ++ (locking c.shardID tx.id _).map _ = _
  rw [none, ordered_blockEvents new, locking_of_distinct distinct member, List.nil_append]
  split <;> rfl

end CrossShard.Shard

namespace CrossShard.Network

set_option autoImplicit false

open CrossShard.Library CrossShard.Protocol CrossShard.Shard CrossShard.Orchestrator

/-- The orchestrator waits for the votes of the involved shards. -/
theorem expectedVoters_produced {c : OrchestratorChain} {tx : CrossShardTx}
    (distinct : (c.produceBlock.1.ctToOrder.map CrossShardTx.id).Nodup)
    (member : tx ∈ c.produceBlock.1.ctToOrder) :
    c.produceBlock.2.expectedVoters.get tx.id = some tx.involvedShards := by
  have loop := awaited_foldl ((c.checkTimeouts.2.height + 1) % 2 ^ 64) c.checkTimeouts.2
    c.produceBlock.1.ctToOrder
  have found : lastWith tx.id c.produceBlock.1.ctToOrder = some tx := by
    cases last : lastWith tx.id c.produceBlock.1.ctToOrder with
    | none =>
        have absent := List.find?_eq_none.1 last tx (List.mem_reverse.2 member)
        simp at absent
    | some t =>
        obtain ⟨listed, same⟩ := lastWith_eq_some last
        rw [List.inj_on_of_nodup_map distinct listed member same]
  have expected : c.produceBlock.2.expectedVoters.get tx.id = _ := loop.expected tx.id
  rw [expected, found]
  rfl

/-- **The expected voters are the voters.**  A shard without other `Lock`s of these IDs processes
a block of distinct, non-empty IDs; whatever happens until its next successful block production
(submissions, failed productions, further blocks that do not order these IDs again), that
block reports a vote on exactly the transactions that involve the shard, a YES exactly on
those whose `Lock` it includes; and these are the shards the orchestrator waits for. -/
theorem voters_are_expected (vm : VM) (shardID : Int) (evm : EVMState) (es : List Event) (n : Node)
    (reached : run (step vm) (Node.start shardID evm) es = some n) (idle : n.work = none)
    (block : OrchestratorShardBlock) (new : n.chain.lastOrchestratorHeight < block.height)
    (distinct : (block.ctToOrder.map CrossShardTx.id).Nodup)
    (named : ∀ tx ∈ block.ctToOrder, tx.id ≠ "")
    (alone : ∀ tx ∈ block.ctToOrder, ∀ t ∈ n.chain.currentTxs, ¬LockOf tx.id t)
    (between : List Event) (m : Node)
    (waited : run (step vm) ⟨n.chain.processOrchestratorBlock block, n.evm, none⟩ between = some m)
    (uncommitted : ∀ stateRoot, .commitBlock stateRoot ∉ between)
    (unrepeated : ∀ tx ∈ block.ctToOrder, ∀ t ∈ ordered between, t.id ≠ tx.id)
    (stateRoot : Hash) (p : Produced)
    (produced : m.chain.produceBlock vm m.evm (some stateRoot) = some p) :
    ∃ b, p.block = some b ∧ ∀ tx ∈ block.ctToOrder,
      ((b.tpcPrepare.get tx.id).isSome ↔ shardID ∈ tx.involvedShards) ∧
      (b.tpcPrepare.get tx.id = some true ↔ Chain.lockTx shardID tx ∈ b.txOrdering) ∧
      ∀ c : OrchestratorChain, c.produceBlock.1.ctToOrder = block.ctToOrder →
        (shardID ∈ (c.produceBlock.2.expectedVoters.get tx.id).getD [] ↔
          (b.tpcPrepare.get tx.id).isSome) := by
  obtain ⟨s, ran, rfl⟩ := Option.map_eq_some_iff.1 produced
  refine ⟨(s.finish stateRoot).1, rfl, fun tx member => ?_⟩
  show ((s.chain.prepares.get tx.id).isSome ↔ _) ∧
    (s.chain.prepares.get tx.id = some true ↔ _ ∈ s.successfulTxs) ∧
      ∀ c : OrchestratorChain, _ → (_ ↔ (s.chain.prepares.get tx.id).isSome)
  have shard : n.chain.shardID = shardID := shardID_of_run reached
  -- what is queued for `tx` when production begins
  have here : n = ⟨n.chain, n.evm, none⟩ := by rw [← idle]
  have ballot : Ballot m := by
    have first := ballot_of_run (ballot_start shardID evm) reached
    rw [here] at first
    exact ballot_of_run (ballot_of_run first
      (processOrchestratorBlock_run vm n.chain n.evm block)) waited
  obtain ⟨shard', locks⟩ := locks_processed new distinct member (alone tx member)
  have nothing : locking n.chain.shardID tx.id (ordered between) = [] := by
    refine List.filter_eq_nil_iff.2 fun t listed own => ?_
    exact unrepeated tx member t listed (by simpa using (of_decide_eq_true own).2)
  have queued : m.chain.currentTxs.filter (LockOf tx.id ·) =
      if shardID ∈ tx.involvedShards then [Chain.lockTx shardID tx] else [] := by
    have later := (locks_of_run (x := tx.id) uncommitted waited).2
    dsimp only at later
    rw [later, locks, shard', nothing, shard, List.map_nil, List.append_nil]
  have sorted : (Chain.sortTransactionsByPriority m.chain.currentTxs).filter (LockOf tx.id ·) =
      m.chain.currentTxs.filter (LockOf tx.id ·) :=
    filter_byKey _ _ (fun a b first second => by
      rw [(of_decide_eq_true first).1, (of_decide_eq_true second).1]) _
  have voters : ((s.chain.prepares.get tx.id).isSome ↔ shardID ∈ tx.involvedShards) ∧
      (s.chain.prepares.get tx.id = some true ↔ Chain.lockTx shardID tx ∈ s.successfulTxs) := by
    by_cases involved : shardID ∈ tx.involvedShards
    · rw [if_pos involved] at queued
      obtain ⟨vote, recorded, listed⟩ := executeAll_once (named tx member) (sorted.trans queued) ran rfl
      rw [recorded, listed]
      exact ⟨⟨fun _ => involved, fun _ => rfl⟩, Option.some_inj⟩
    · rw [if_neg involved] at queued
      have none : ∀ t ∈ Chain.sortTransactionsByPriority m.chain.currentTxs, ¬LockOf tx.id t := by
        simpa [List.filter_eq_nil_iff] using sorted.trans queued
      obtain ⟨recorded, listed⟩ := executeAll_without none ran
      have unvoted : m.chain.prepares.get tx.id = Option.none := by
        by_contra voted
        obtain ⟨t, waits, own⟩ := ballot.cast tx.id voted
        exact List.filter_eq_nil_iff.1 queued t waits (decide_eq_true own)
      rw [recorded, unvoted]
      refine ⟨⟨nofun, fun contrary => absurd contrary involved⟩, nofun, fun included => ?_⟩
      have kept : Chain.lockTx shardID tx ∈ s.successfulTxs.filter (LockOf tx.id ·) :=
        List.mem_filter.2 ⟨included, decide_eq_true ⟨rfl, rfl⟩⟩
      rw [listed] at kept
      cases kept
  refine ⟨voters.1, voters.2, fun c same => ?_⟩
  rw [voters.1, expectedVoters_produced (by rw [same]; exact distinct)
    (by rw [same]; exact member)]
  rfl

namespace VotersPole

def noCode : VM := ⟨fun e _ _ _ _ _ => .ok e⟩

def poor : EVMState := ⟨fun _ => 0, fun _ _ => 0, fun _ => []⟩

/-- A transfer of `value` from `shard` with the given read/write set. -/
def transfer (id : TxID) (shard : Int) (value : Int) (rwSet : List RwVariable) : CrossShardTx where
  id := id
  fromShard := shard
  fromAddr := 0x100
  toAddr := 0x301
  value := some value
  rwSet := rwSet

/-- A source-only transfer that shard 0 cannot cover. -/
def uncovered : CrossShardTx := transfer "tx-a" 0 5 []

/-- A transfer that names shard 0 twice. -/
def twice : CrossShardTx :=
  transfer "tx-b" 1 5 [⟨0x400, ⟨0⟩, [⟨7, []⟩], []⟩, ⟨0x408, ⟨0⟩, [], []⟩]

/-- A transfer that does not involve shard 0. -/
def elsewhere : CrossShardTx := transfer "tx-c" 1 5 [⟨0x302, ⟨2⟩, [], []⟩]

def mixed : OrchestratorShardBlock := ⟨1, ∅, [uncovered, twice, elsewhere]⟩

def processed : Node :=
  ⟨(Chain.newChain 0).processOrchestratorBlock mixed, poor, none⟩

end VotersPole

open VotersPole in
/-- After a production whose commit fails, shard 0's next block votes on the two transactions that
involve it: NO on the first, YES on the second. -/
theorem mixed_block_votes :
    ∃ m p b, run (step noCode) processed (produceEvents processed.chain none) = some m ∧
      m.chain.produceBlock noCode m.evm (some 0) = some p ∧ p.block = some b ∧
      (b.tpcPrepare.get "tx-a").isSome ∧ (b.tpcPrepare.get "tx-b").isSome ∧
      ¬(b.tpcPrepare.get "tx-c").isSome ∧ b.tpcPrepare.get "tx-a" = some false := by
  obtain ⟨m, p, waited, produced, vote⟩ : ∃ m p,
      run (step noCode) processed (produceEvents processed.chain none) = some m ∧
        m.chain.produceBlock noCode m.evm (some 0) = some p ∧
        (p.block.bind fun b => b.tpcPrepare.get "tx-a") = some false :=
    ⟨_, _, rfl, rfl, by decide +kernel⟩
  obtain ⟨b, made, votes⟩ := voters_are_expected noCode 0 poor [] (Node.start 0 poor) rfl rfl mixed
    (by decide) (by decide) (by decide) (by decide) _ m waited (by
      intro stateRoot listed
      simp [produceEvents] at listed) (by decide +kernel) 0 p produced
  rw [made] at vote
  refine ⟨m, p, b, waited, produced, made, ?_, ?_, ?_, vote⟩
  · exact (votes uncovered (by decide)).1.2 (by decide)
  · exact (votes twice (by decide)).1.2 (by decide)
  · exact fun voted => absurd ((votes elsewhere (by decide)).1.1 voted) (by decide)

end CrossShard.Network
