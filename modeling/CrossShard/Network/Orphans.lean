/-
# Network.Orphans -- a lock that outlives its decision is there to stay

A shard releases what it holds for a transaction when it executes the `Unlock` that the decision
queues.  Where the decision arrives before the `Lock` is executed, both stand in one queue, the
`Unlock` comes first by its priority and the `Lock` takes the slots afterwards.  Nothing is left
that would release them: the next decision on the same ID is ignored as processed, and no lock
times out.

* `Orphan`: a processed transaction without further work in the queue.
* `Orphan.run`: its locks and pending entries stay as they are, whatever the shard does.
* `orphaned_slot_blocks`: in a run of the cluster no transaction that reads an orphaned slot is
  committed any more, except those whose commit the shard has already processed.
* `aborted_order_blocks_slot`: an order and its abort that reach a shard before it produces.
-/
import CrossShard.Network.Serializability

namespace CrossShard.Network

set_option autoImplicit false

open CrossShard.Library CrossShard.Protocol CrossShard.Shard CrossShard.Orchestrator
open Chain (lockTx ReadsSlot TxView)

instance (x : TxID) (tx : Transaction) : Decidable (Foreign x tx) :=
  inferInstanceAs (Decidable (_ → _))

/-! ## One shard -/

/-- `x` is decided on the shard, its records are `v`, and no work is left for it. -/
structure Orphan (x : TxID) (v : TxView) (n : Node) : Prop where
  view : n.chain.view x = v
  processed : n.chain.isCommitProcessed x = true
  queue : ∀ tx ∈ n.chain.currentTxs, Foreign x tx
  waiting : ∀ tx ∈ n.outstanding, Foreign x tx

/-- The event does not order `x`. -/
def LeavesOut (x : TxID) : Event → Prop
  | .order t => t.id ≠ x
  | _ => True

section Step

variable {x : TxID} {v : TxView} {vm : VM} {n n' : Node} {e : Event}

theorem Orphan.added (orphan : Orphan x v n) (taken : Taken vm n e n')
    (leavesOut : LeavesOut x e) : ∀ tx ∈ Shard.added n e, Foreign x tx := by
  intro tx member
  have spares : e.Spares x := by
    cases e with
    | decision y commit =>
        rintro rfl
        -- a second decision on the same ID queues nothing
        simp [Shard.added, orphan.processed] at member
    | order t => exact leavesOut
    | _ => trivial
  exact taken.added_foreign spares tx member

theorem Orphan.view_step (orphan : Orphan x v n) (taken : Taken vm n e n')
    (leavesOut : LeavesOut x e) : n'.chain.view x = n.chain.view x := by
  have other : ∀ {tx : Transaction} {rest successful},
      n.work = some ⟨tx :: rest, successful⟩ → tx.txType ≠ .localTx → x ≠ tx.crossShardTxID := by
    intro tx rest successful busy kind own
    refine kind (orphan.waiting tx ?_ own.symm)
    rw [Node.outstanding_of_busy busy]
    exact List.mem_cons_self
  cases taken with
  | ordered t idle involved => exact Chain.view_noteOrder_of_ne (Ne.symm leavesOut)
  | granted tx rest successful busy kind chain lock =>
      exact lock.view_of_ne (other busy (by simp [kind]))
  | refused tx rest successful busy kind chain lock result =>
      exact lock.others x (other busy (by simp [kind]))
  | applied tx rest successful busy kind free evm ran =>
      by_cases isLocal : tx.txType = .localTx
      · exact congrArg (Chain.view · x) (cleanupAfterExecution_of_local n.chain isLocal)
      · exact Chain.view_cleanupAfterExecution_of_ne (other busy isLocal)
  | _ => rfl

/-- **One event.** -/
theorem Orphan.step (orphan : Orphan x v n) (taken : Taken vm n e n')
    (leavesOut : LeavesOut x e) : Orphan x v n' where
  view := (orphan.view_step taken leavesOut).trans orphan.view
  processed := by rw [taken.processed_eq, orphan.processed, Bool.true_or]
  queue tx member :=
    (taken.mem_currentTxs member).elim (orphan.queue tx) (orphan.added taken leavesOut tx)
  waiting tx member := by
    by_cases failed : e = .commitError
    · subst failed
      cases taken
      exact orphan.queue tx member
    · exact (taken.mem_outstanding failed member).elim (orphan.waiting tx)
        (orphan.added taken leavesOut tx)

/-- **Every run.** -/
theorem Orphan.run {es : List Event} (orphan : Orphan x v n)
    (leavesOut : ∀ e ∈ es, LeavesOut x e)
    (reached : Library.run (Shard.step vm) n es = some n') : Orphan x v n' := by
  refine run_preserves (Orphan x v) ?_ orphan leavesOut reached
  intro m e m' orphan leavesOut stepped
  exact orphan.step (taken_of_step stepped) leavesOut

end Step

/-! ## The cluster -/

section Runs

variable {E : Engines} {numShards : Nat} {evm : Int → EVMState} {as bs : List Action}
  {net net' : Cluster}

/-- An ID that a shard has recorded a slot for is not ordered again. -/
theorem Regular.left_out_after (regular : Regular E numShards evm as net)
    (later : Regular E numShards evm (as ++ bs) net') {k : Int} {x : TxID} {a : Address} {s : Hash}
    (held : (net.shards k).chain.slotHolder a s = some x) :
    ∀ e ∈ eventsOf E net k bs, LeavesOut x e := by
  have traced := traced_of_run (regular.disciplined k) (regular.eventsRun k)
  obtain ⟨t, known, own, -⟩ := traced.tables.slots a s x held
  have distinct := (later.disciplined k).distinct
  rw [eventsOf_append regular.smooth regular.reached, ordered_append, List.map_append] at distinct
  have apart := (List.nodup_append.1 distinct).2.2
  intro e member
  cases e with
  | order t' =>
      intro again
      refine apart x (own ▸ List.mem_map_of_mem known) x ?_ rfl
      exact again ▸ List.mem_map_of_mem (List.mem_filterMap.2 ⟨.order t', member, rfl⟩)
  | _ => trivial

/-- An orphaned slot lock of a regular run stays. -/
theorem Regular.orphan_stays (regular : Regular E numShards evm as net)
    (later : Regular E numShards evm (as ++ bs) net') {k : Int} {x : TxID} {a : Address} {s : Hash}
    (held : (net.shards k).chain.slotHolder a s = some x)
    (processed : (net.shards k).chain.isCommitProcessed x = true)
    (idle : ∀ tx ∈ (net.shards k).chain.currentTxs, Foreign x tx) :
    Orphan x ((net.shards k).chain.view x) (net'.shards k).node := by
  have orphan : Orphan x ((net.shards k).chain.view x) (net.shards k).node :=
    ⟨rfl, processed, idle, idle⟩
  have rest := run_rest regular.reached later.reached
  have smooth : Smooth bs := fun b member => later.smooth b (List.mem_append_right _ member)
  exact orphan.run (regular.left_out_after later held) (eventsOf_run smooth rest k)

/-- A commit gets by a slot that a processed transaction holds only if it is processed itself. -/
theorem Regular.processed_of_blocked (confined : StorageConfined E.vm)
    (regular : Regular E numShards evm as net)
    (reads : ∀ t ∈ net.service.chain.orders, WritesRead t) {k : Int} {x : TxID} {a : Address}
    {s : Hash} (held : (net.shards k).chain.slotHolder a s = some x)
    (processed : (net.shards k).chain.isCommitProcessed x = true) {t : CrossShardTx}
    (member : t ∈ net.service.chain.orders) (readsSlot : ReadsSlot (lockTx k t) a s)
    (committed : net.service.chain.Committed t.id) :
    (net.shards k).chain.isCommitProcessed t.id = true := by
  by_contra fresh
  have mine := regular.held_of_committed confined reads member committed
    (involved_of_reads readsSlot) (Bool.eq_false_iff.2 fresh)
  obtain ⟨p, listed, rfl, rfl⟩ := readsSlot
  cases held.symm.trans (mine.slots p listed)
  exact fresh processed

/-- A commit that a shard has processed was decided before the shard's last request. -/
theorem Regular.committed_before {b : Action} {mid : Cluster}
    (early : Regular E numShards evm as mid) (stepped : mid.step E b = some net)
    (regular : Regular E numShards evm (as ++ [b]) net) {t : CrossShardTx}
    (member : t ∈ net.service.chain.orders) (committed : net.service.chain.Committed t.id) {k : Int}
    (processed : (net.shards k).chain.isCommitProcessed t.id = true) :
    t ∈ mid.service.chain.orders ∧ mid.service.chain.Committed t.id := by
  have heard : verdict (eventsOf E (Cluster.start numShards evm) k as ++
      (mid.shards k).history E.vm E.simulateCall (b.requestTo k)) t.id ≠ none := by
    rw [← eventsOf_concat early.smooth early.reached]
    have mark := marked_of_run (regular.eventsRun k) t.id
    exact Option.isSome_iff_ne_none.1 (mark.symm.trans processed)
  obtain ⟨commit, decided⟩ :=
    decided_of_verdict early (stands_of_action early.reached stepped k) heard
  obtain ⟨J, tracked, -⟩ := tracked_of_run regular.reached regular.distinct
  have decided' := decided.mono (blocks_step stepped)
  have committed' : mid.service.chain.Committed t.id := by
    rcases committed with pending | settled
    · exact absurd decided' (tracked.pending_undecided regular.distinct pending)
    · cases tracked.decided_unique regular.distinct decided' settled
      exact .inr decided
  obtain ⟨t', logged, own, -⟩ := early.voted committed'
  have same : t' = t := regular.order_unique
    (OrchestratorChain.mem_orders_mono logged (blocks_step stepped)) member own
  exact ⟨same ▸ logged, committed'⟩

/-- **An orphaned lock blocks its slot for good.**  Let a shard hold a slot for a transaction that
it has already seen decided and for which it has no work left.  In every continuation of the run
without restarts and failed commits the shard keeps all its records of the transaction, and the
transactions that read the slot and are committed are among those whose commit the shard had
processed before. -/
theorem orphaned_slot_blocks (confined : StorageConfined E.vm)
    (regular : Regular E numShards evm as net)
    (later : Regular E numShards evm (as ++ bs) net')
    (reads : ∀ t ∈ net'.service.chain.orders, WritesRead t) {k : Int} {x : TxID} {a : Address}
    {s : Hash} (held : (net.shards k).chain.slotHolder a s = some x)
    (processed : (net.shards k).chain.isCommitProcessed x = true)
    (idle : ∀ tx ∈ (net.shards k).chain.currentTxs, Foreign x tx) :
    (net'.shards k).chain.view x = (net.shards k).chain.view x ∧
    (net'.shards k).chain.slotHolder a s = some x ∧
    ∀ t ∈ net'.service.chain.orders, ReadsSlot (lockTx k t) a s →
      net'.service.chain.Committed t.id → (net.shards k).chain.isCommitProcessed t.id = true := by
  have stays := regular.orphan_stays later held processed idle
  refine ⟨stays.view, (Chain.slots_of_view stays.view a s).2 held, ?_⟩
  intro t member readsSlot committed
  clear stays
  -- backwards along `bs`: what is processed at the end was committed one action before
  induction bs using List.reverseRecOn generalizing net' with
  | nil =>
      rw [List.append_nil] at later
      cases later.reached.symm.trans regular.reached
      exact regular.processed_of_blocked confined reads held processed member readsSlot committed
  | append_singleton bs b ih =>
      have stays := regular.orphan_stays later held processed idle
      rw [← List.append_assoc] at later
      obtain ⟨mid, early, stepped⟩ := later.before
      have done := later.processed_of_blocked confined reads
        ((Chain.slots_of_view stays.view a s).2 held) stays.processed member readsSlot committed
      obtain ⟨member', committed'⟩ := early.committed_before stepped later member committed done
      refine ih early (fun t known => reads t ?_) member' committed'
      exact OrchestratorChain.mem_orders_mono known (blocks_step stepped)

end Runs

namespace OrphanPole

def alice : Address := 0x100
def vault : Address := 0x400
def carol : Address := 0x301

def empty : EVMState := ⟨fun _ => 0, fun _ _ => 0, fun _ => []⟩

def engines : Engines where
  vm := ⟨fun e _ _ _ _ _ => .ok e⟩
  simulateCall := fun _ _ _ _ _ _ => .error ""
  evmCall := fun _ _ _ _ _ => .done ⟨0, none⟩

/-- Reads slot 7 of the vault on shard 0 and, with an outdated value, a slot of shard 1. -/
def outdated : CrossShardTx where
  id := "tx-1"
  fromShard := 0
  fromAddr := alice
  toAddr := carol
  value := some 0
  data := [1]
  rwSet := [⟨vault, ⟨0⟩, [⟨7, []⟩], []⟩, ⟨carol, ⟨1⟩, [⟨0, [5]⟩], []⟩]

/-- Reads the same slot of the vault, with its current value. -/
def current : CrossShardTx where
  id := "tx-2"
  fromShard := 0
  fromAddr := alice
  toAddr := vault
  value := some 0
  data := [1]
  rwSet := [⟨vault, ⟨0⟩, [⟨7, []⟩], []⟩]

def no (id : TxID) : AList fun _ : TxID => Bool := (∅ : AList _).insert id false

def block1 : OrchestratorShardBlock := ⟨1, ∅, [outdated]⟩
def block2 : OrchestratorShardBlock := ⟨2, no "tx-1", []⟩
def block3 : OrchestratorShardBlock := ⟨3, ∅, [current]⟩

/-- Shard 1 votes NO.  The order and the abort reach shard 0 before it produces. -/
def aborted : List Action :=
  [.submit "" outdated, .produce, .deliver 1 block1, .shardProduce 1 (some 0),
    .report 1 1 (no "tx-1"), .produce, .deliver 0 block1, .deliver 0 block2,
    .shardProduce 0 (some 0)]

def retried : List Action :=
  [.submit "" current, .produce, .deliver 0 block3, .shardProduce 0 (some 0),
    .report 0 2 (no "tx-2"), .produce]

theorem confined : StorageConfined engines.vm := by
  rintro e caller callee data gas value e' ⟨⟩ a other
  rfl

end OrphanPole

open OrphanPole in
/-- Shard 0 locks the vault for the aborted transaction and refuses the next reader of it, whose
value is current. -/
theorem aborted_order_blocks_slot :
    ∃ net net', Regular engines 2 (fun _ => empty) aborted net ∧
      Regular engines 2 (fun _ => empty) (aborted ++ retried) net' ∧
      net.service.chain.Decided "tx-1" false ∧
      (net'.shards 0).chain.slotHolder vault 7 = some "tx-1" ∧
      current ∈ net'.service.chain.orders ∧ ¬net'.service.chain.Committed "tx-2" := by
  have regular : Regular engines 2 (fun _ => empty) aborted _ :=
    ⟨rfl, by decide, by decide +kernel, by decide +kernel⟩
  have later : Regular engines 2 (fun _ => empty) (aborted ++ retried) _ :=
    ⟨rfl, by decide, by decide +kernel, by decide +kernel⟩
  obtain ⟨-, held, blocked⟩ := orphaned_slot_blocks (k := 0) (x := "tx-1") (a := vault) (s := 7)
    confined regular later (by decide +kernel) (by decide +kernel) (by decide +kernel)
    (by decide +kernel)
  refine ⟨_, _, regular, later, by decide +kernel, held, by decide +kernel, fun committed => ?_⟩
  have readsVault : ReadsSlot (lockTx 0 current) vault 7 :=
    ⟨(vault, ⟨7, []⟩), by decide, rfl, rfl⟩
  have done := blocked current (by decide +kernel) readsVault committed
  revert done
  decide +kernel

end CrossShard.Network
