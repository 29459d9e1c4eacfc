/-
# Shard.BlockReplay -- a block replays to its own state

The transactions that `ProduceBlock` leaves out of the block (blocked, failed, refused) leave
no trace on the state or on the locks: producing a block from the same chain and state with
exactly the transactions of a block as queue includes all of them again, and ends in the same
state with the same locks.  The other tables do not decide about any transaction, so it does
not matter that a refused `Lock` clears them.

* `executeOne_dropped`: a transaction that is left out changes nothing that later ones see.
* `Twin.executeOne`: a turn does the same wherever state and locks agree.
* `block_replays_to_itself`: the loop, by induction.
-/
import CrossShard.Shard.LockSpec
import CrossShard.Shard.ResultOrder

namespace CrossShard.Shard

set_option autoImplicit false

open CrossShard.Library CrossShard.Protocol

/-- Two moments of the loop that agree on all that decides about the next transaction. -/
structure Twin (s r : BlockState) : Prop where
  evm : r.evm = s.evm
  locks : r.chain.locks = s.chain.locks

section Turn

variable {vm : VM} {s s' r : BlockState} {tx : Transaction}

/-- Whether a local transaction is blocked depends on the locks. -/
theorem Twin.conflict (twin : Twin s r) (tx : Transaction) :
    (r.chain.checkLocalTxLockConflict tx).isSome = (s.chain.checkLocalTxLockConflict tx).isSome := by
  have locked : ∀ a, r.chain.isAddressLocked a = s.chain.isAddressLocked a := by
    intro a
    have holders : r.chain.slotHolder = s.chain.slotHolder := congrArg Locks.slots twin.locks
    rw [Bool.eq_iff_iff, Chain.isAddressLocked_iff, Chain.isAddressLocked_iff, holders]
  unfold Chain.checkLocalTxLockConflict
  rw [locked, locked]

/-- **A transaction that is left out leaves no trace** on the state and the locks. -/
theorem executeOne_dropped (ran : s.executeOne vm tx = some s')
    (dropped : s'.successfulTxs = s.successfulTxs)
    (absent : tx.txType = .lock → s.chain.locks.Absent tx.crossShardTxID) : Twin s s' := by
  have included : ∀ {successful : List Transaction}, successful ++ [tx] ≠ successful := fun same => by
    simpa using congrArg List.length same
  cases executed_of_executeOne ran with
  | skipped reason => exact ⟨rfl, rfl⟩
  | granted kind chain lock result => exact absurd dropped included
  | refused kind chain lock result =>
      exact ⟨rfl, Chain.locks_refused kind (absent kind) lock result⟩
  | applied kind free evm ok => exact absurd dropped included

theorem Twin.grants (twin : Twin s r) (tx : Transaction) :
    r.chain.locks.Grants r.evm tx ↔ s.chain.locks.Grants s.evm tx := by
  rw [twin.locks, twin.evm]

/-- **A turn from twins.**  Both include the transaction or both leave it out, they end as twins,
and votes that agreed still agree. -/
theorem Twin.executeOne (twin : Twin s r) (ran : s.executeOne vm tx = some s') :
    ∃ added r', r.executeOne vm tx = some r' ∧ Twin s' r' ∧
      s'.successfulTxs = s.successfulTxs ++ added ∧ r'.successfulTxs = r.successfulTxs ++ added ∧
      (r.chain.prepares = s.chain.prepares → r'.chain.prepares = s'.chain.prepares) := by
  cases executed_of_executeOne ran with
  | skipped reason =>
      have done : Executed vm r tx r := by
        refine .skipped (reason.imp (fun conflict => ?_) ?_)
        · rw [twin.conflict]
          exact conflict
        · rintro ⟨kind, msg, failure⟩
          exact ⟨kind, msg, by rw [twin.evm, failure]⟩
      exact ⟨[], r, done.executeOne, twin, (List.append_nil _).symm, (List.append_nil _).symm, id⟩
  | granted kind chain lock result =>
      rcases r.chain.executeLock_cases r.evm kind with ⟨chain', result', lock'⟩ | ⟨_, result', -⟩
      · have done : Executed vm r tx ⟨chain', r.evm, r.successfulTxs ++ [tx]⟩ :=
          .granted kind chain' lock' result'
        refine ⟨[tx], _, done.executeOne, ⟨twin.evm, ?_⟩, rfl, rfl, fun votes => ?_⟩
        · show chain'.locks = chain.locks
          rw [Chain.locks_granted lock', Chain.locks_granted lock, twin.locks]
        · show chain'.prepares = chain.prepares
          rw [lock'.chain, lock.chain, votes]
      · have again := Chain.executeLock_of_grants ((twin.grants tx).2 (Chain.grants_of_granted lock))
        rw [result'] at again
        cases again
  | refused kind chain lock result =>
      rcases r.chain.executeLock_cases r.evm kind with ⟨_, -, lock'⟩ | ⟨chain', result', lock'⟩
      · have again := Chain.executeLock_of_grants ((twin.grants tx).1 (Chain.grants_of_granted lock'))
        rw [result] at again
        cases again
      · have done : Executed vm r tx ⟨chain', r.evm, r.successfulTxs⟩ :=
          .refused kind chain' lock' result'
        refine ⟨[], _, done.executeOne, ⟨twin.evm, ?_⟩, (List.append_nil _).symm,
          (List.append_nil _).symm, fun votes => ?_⟩
        · show chain'.locks = chain.locks
          rw [Chain.locks_of_refused kind lock' result', Chain.locks_of_refused kind lock result,
            twin.locks, twin.evm]
        · show chain'.prepares = chain.prepares
          rw [lock'.vote, lock.vote, votes]
  | applied kind free evm ok =>
      have free' : r.chain.checkLocalTxLockConflict tx = none := by
        rw [← Option.not_isSome_iff_eq_none, twin.conflict, free]
        nofun
      have done : Executed vm r tx
          ⟨r.chain.cleanupAfterExecution tx, evm, r.successfulTxs ++ [tx]⟩ :=
        .applied kind free' evm (by rw [twin.evm, ok])
      refine ⟨[tx], _, done.executeOne, ⟨rfl, ?_⟩, rfl, rfl, fun votes => ?_⟩
      · show (r.chain.cleanupAfterExecution tx).locks = (s.chain.cleanupAfterExecution tx).locks
        rw [Chain.locks_cleanupAfterExecution, Chain.locks_cleanupAfterExecution, twin.locks]
      · show (r.chain.cleanupAfterExecution tx).prepares = (s.chain.cleanupAfterExecution tx).prepares
        rw [Chain.prepares_cleanupAfterExecution _ kind, Chain.prepares_cleanupAfterExecution _ kind,
          votes]

/-- A turn includes its transaction or leaves it out. -/
theorem executeOne_successful (ran : s.executeOne vm tx = some s') :
    s'.successfulTxs = s.successfulTxs ∨ s'.successfulTxs = s.successfulTxs ++ [tx] := by
  cases executed_of_executeOne ran with
  | skipped reason => exact Or.inl rfl
  | granted kind chain lock result => exact Or.inr rfl
  | refused kind chain lock result => exact Or.inl rfl
  | applied kind free evm ok => exact Or.inr rfl

/-- Nothing is taken for a transaction by a turn for another one. -/
theorem Locks.Absent.executeOne {x : TxID} (ran : s.executeOne vm tx = some s')
    (absent : s.chain.locks.Absent x) (other : tx.txType = .lock → tx.crossShardTxID ≠ x)
    (own : tx.txType = .lock → s.chain.locks.Absent tx.crossShardTxID) :
    s'.chain.locks.Absent x := by
  cases executed_of_executeOne ran with
  | skipped reason => exact absent
  | granted kind chain lock result =>
      show chain.locks.Absent x
      rw [Chain.locks_lock_of_granted lock]
      exact absent.lock (Or.inl (other kind))
  | refused kind chain lock result =>
      show chain.locks.Absent x
      rw [Chain.locks_refused kind (own kind) lock result]
      exact absent
  | applied kind free evm ok =>
      show (s.chain.cleanupAfterExecution tx).locks.Absent x
      rw [Chain.locks_cleanupAfterExecution]
      exact absent.cleanup tx

end Turn

/-! ## The loop -/

/-- Every ID has at most one `Lock` in the list, and nothing is held for it. -/
structure FreshLocks (txs : List Transaction) (l : Locks) : Prop where
  nodup : ((txs.filter fun tx => tx.txType = .lock).map Transaction.crossShardTxID).Nodup
  absent : ∀ tx ∈ txs, tx.txType = .lock → l.Absent tx.crossShardTxID

theorem FreshLocks.perm {txs txs' : List Transaction} {l : Locks} (fresh : FreshLocks txs l)
    (perm : txs'.Perm txs) : FreshLocks txs' l where
  nodup := (((perm.filter _).map _).nodup_iff).2 fresh.nodup
  absent tx member := fresh.absent tx (perm.mem_iff.1 member)

theorem FreshLocks.tail {vm : VM} {s s' : BlockState} {tx : Transaction} {txs : List Transaction}
    (fresh : FreshLocks (tx :: txs) s.chain.locks) (ran : s.executeOne vm tx = some s') :
    FreshLocks txs s'.chain.locks := by
  have nodup := fresh.nodup
  refine ⟨?_, fun tx' later kind' => ?_⟩
  · refine nodup.sublist (List.Sublist.map _ (List.Sublist.filter _ ?_))
    exact List.sublist_cons_self tx txs
  · refine (fresh.absent tx' (List.mem_cons_of_mem _ later) kind').executeOne ran (fun kind same => ?_)
      (fresh.absent tx List.mem_cons_self)
    rw [List.filter_cons_of_pos (by simpa using kind), List.map_cons, List.nodup_cons] at nodup
    exact nodup.1 (List.mem_map.2 ⟨tx', List.mem_filter.2 ⟨later, by simpa using kind'⟩, same.symm⟩)

/-- **The loop, replayed.**  What it includes is a part of its list, and that part alone runs to
the same state and locks. -/
theorem executeAll_replays {vm : VM} {txs : List Transaction} :
    ∀ {s s' r : BlockState}, FreshLocks txs s.chain.locks → Twin s r →
      BlockState.executeAll vm s txs = some s' →
      ∃ added r', s'.successfulTxs = s.successfulTxs ++ added ∧ added.Sublist txs ∧
        BlockState.executeAll vm r added = some r' ∧
        r'.successfulTxs = r.successfulTxs ++ added ∧ Twin s' r' := by
  induction txs with
  | nil =>
      intro s s' r _ twin ran
      cases ran
      exact ⟨[], r, by rw [List.append_nil], .slnil, rfl, by rw [List.append_nil], twin⟩
  | cons tx txs ih =>
      intro s s' r fresh twin ran
      obtain ⟨m, first, rest⟩ := Option.bind_eq_some_iff.1 ran
      have later := fresh.tail first
      rcases executeOne_successful first with dropped | included
      · have still := executeOne_dropped first dropped (fresh.absent tx List.mem_cons_self)
        have twin' : Twin m r := ⟨twin.evm.trans still.evm.symm, twin.locks.trans still.locks.symm⟩
        obtain ⟨added, r', listed, part, ran', listed', final⟩ := ih later twin' rest
        exact ⟨added, r', by rw [listed, dropped], part.cons tx, ran', listed', final⟩
      · obtain ⟨part', r₁, first', twin', listed, included', -⟩ := twin.executeOne first
        have again : part' = [tx] := List.append_cancel_left (listed.symm.trans included)
        rw [again] at included'
        obtain ⟨added, r', listed, part, ran', listed', final⟩ := ih later twin' rest
        refine ⟨tx :: added, r', ?_, part.cons_cons tx, ?_, ?_, final⟩
        · rw [listed, included, List.append_assoc, List.singleton_append]
        · rw [BlockState.executeAll, first', Option.bind_some, ran']
        · rw [listed', included', List.append_assoc, List.singleton_append]

/-- **A block replays to its own state.**  If every ID has at most one `Lock` in the queue and
holds nothing before, the transactions of the block are a part of the sorted queue, and producing
a block from the same chain and state with exactly them as queue includes all of them again and
ends with the same state and the same locks. -/
theorem block_replays_to_itself (vm : VM) (c : Chain) (evm : EVMState) (stateRoot : Hash)
    (p : Produced) (fresh : FreshLocks c.currentTxs c.locks)
    (produced : c.produceBlock vm evm (some stateRoot) = some p) :
    ∃ block, p.block = some block ∧
      block.txOrdering.Sublist (Chain.sortTransactionsByPriority c.currentTxs) ∧
      block.txOrdering.Pairwise (fun tx tx' => tx.txType.priority ≤ tx'.txType.priority) ∧
      (∀ k, (withPriority k block.txOrdering).Sublist (withPriority k c.currentTxs)) ∧
      ∀ stateRoot', ∃ p' block',
        (c.withQueue block.txOrdering).produceBlock vm evm (some stateRoot') = some p' ∧
          p'.block = some block' ∧ block'.txOrdering = block.txOrdering ∧
          p'.evm = p.evm ∧ p'.chain.locks = p.chain.locks := by
  rw [produceBlock_eq] at produced
  obtain ⟨s, ran, rfl⟩ := Option.map_eq_some_iff.1 produced
  have sorted := byKey_perm (fun tx : Transaction => tx.txType.priority) c.currentTxs
  obtain ⟨added, r, listed, part, again, listed', twin⟩ :=
    executeAll_replays (s := ⟨c, evm, []⟩) (r := ⟨c.withQueue s.successfulTxs, evm, []⟩)
      (fresh.perm sorted) ⟨rfl, rfl⟩ ran
  have included : s.successfulTxs = added := listed
  rw [← included] at part again listed'
  have ordered : s.successfulTxs.Pairwise fun tx tx' => tx.txType.priority ≤ tx'.txType.priority :=
    (byKey_sorted _ c.currentTxs).sublist part
  have resorted : Chain.sortTransactionsByPriority s.successfulTxs = s.successfulTxs :=
    List.Pairwise.insertionSort_eq ordered
  refine ⟨_, rfl, part, ordered, fun k => ?_, fun stateRoot' => ?_⟩
  · have stable : withPriority k (Chain.sortTransactionsByPriority c.currentTxs) =
        withPriority k c.currentTxs :=
      filter_byKey (fun tx : Transaction => tx.txType.priority) _ (by simp_all) c.currentTxs
    rw [← stable]
    exact part.filter _
  · refine ⟨r.produced (some stateRoot'), _, ?_, rfl, listed', twin.evm, twin.locks⟩
    rw [produceBlock_eq]
    show (BlockState.executeAll vm ⟨c.withQueue s.successfulTxs, evm, []⟩
      (Chain.sortTransactionsByPriority s.successfulTxs)).map _ = _
    rw [resorted, again, Option.map_some]

namespace BlockReplayPole

def alice : Address := 0x100
def bob : Address := 0x108
def vault : Address := 0x110

def funded : EVMState := ⟨fun a => if a = alice then 100 else 0, fun _ _ => 0, fun _ => []⟩

def vm : VM := ⟨fun e _ _ _ _ _ => .ok e⟩

def lockOf (txID : TxID) (amount : Int) : Transaction where
  txType := .lock
  crossShardTxID := txID
  fromAddr := alice
  value := some amount
  rwSet := [⟨vault, ⟨0⟩, [⟨7, []⟩], []⟩]

/-- A transfer that fails, a `Lock` that asks for too much, one that is granted, one whose slot is
taken, and a transfer. -/
def mixed : Chain := { Chain.newChain 0 with
  currentTxs := [{ fromAddr := bob, toAddr := alice, value := some 5 }, lockOf "tx-1" 200,
    lockOf "tx-2" 60, lockOf "tx-3" 10, { fromAddr := alice, toAddr := bob, value := some 5 }] }

theorem mixed_fresh : FreshLocks mixed.currentTxs mixed.locks :=
  ⟨by decide +kernel, fun _ _ _ => ⟨rfl, fun _ => nofun, fun _ _ => nofun⟩⟩

end BlockReplayPole

open BlockReplayPole in
/-- Three of five transactions are left out, and the other two replay. -/
theorem mixed_block_replays :
    ∃ p block, mixed.produceBlock vm funded (some 0) = some p ∧ p.block = some block ∧
      block.txOrdering = [lockOf "tx-2" 60, { fromAddr := alice, toAddr := bob, value := some 5 }] ∧
      ∃ p', (mixed.withQueue block.txOrdering).produceBlock vm funded (some 0) = some p' ∧
        p'.evm = p.evm ∧ p'.chain.locks = p.chain.locks := by
  obtain ⟨p, produced, ordering⟩ : ∃ p, mixed.produceBlock vm funded (some 0) = some p ∧
      p.block.map StateShardBlock.txOrdering =
        some [lockOf "tx-2" 60, { fromAddr := alice, toAddr := bob, value := some 5 }] :=
    ⟨_, rfl, by decide +kernel⟩
  obtain ⟨block, made, -, -, -, replay⟩ :=
    block_replays_to_itself vm mixed funded 0 p mixed_fresh produced
  obtain ⟨p', -, again, -, -, evm, locks⟩ := replay 0
  rw [made] at ordering
  exact ⟨p, block, produced, made, Option.some.inj ordering, p', again, evm, locks⟩

end CrossShard.Shard
