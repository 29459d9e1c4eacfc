/-
# Network.Serializability -- one order for all shards

Each shard executes its blocks on its own, at its own pace.  In a run of the cluster without
restarts and failed commits the whole is serializable:

* `shards_refine_serial`: the state of a shard is the one a machine without locks reaches on the
  transactions of the shard's blocks, validating and writing each committed transaction at once.
* `conflicts_follow_decisions`: two transactions that read the same slot of some shard are locked
  there in the order of the heights of their decisions.  Heights are the same for all shards, so
  no two shards order two transactions differently and the conflicts have no cycle.
* `committed_reads_current`: from the decision on, until a shard processes it, what a committed
  transaction has read on that shard is locked for it and current.  At the moment of the decision
  this is so on all its shards at once.
-/
import CrossShard.Network.Preparation
import CrossShard.Shard.Inclusion

namespace CrossShard.Network

set_option autoImplicit false

open CrossShard.Library CrossShard.Protocol CrossShard.Shard CrossShard.Orchestrator
open Chain (lockTx readItems ReadsSlot)

instance (t : CrossShardTx) : Decidable (WritesRead t) :=
  inferInstanceAs (Decidable (∀ rw ∈ t.rwSet, ∀ w ∈ rw.writeSet, ∃ r ∈ rw.readSet, _))

section Runs

variable {E : Engines} {numShards : Nat} {evm : Int → EVMState} {as : List Action} {net : Cluster}

/-! ## One shard -/

/-- **Every shard refines the serial machine.**  In a regular run of the cluster, where write sets
are among the read sets and calls write storage only at their callee, the state of each shard is
the one that the machine without locks reaches on the transactions of the shard's blocks. -/
theorem shards_refine_serial (confined : StorageConfined E.vm)
    (regular : Regular E numShards evm as net)
    (reads : ∀ t ∈ net.service.chain.orders, WritesRead t) (k : Int) :
    run (serialStep E.vm) (evm k) (executionOrder net k) = some (net.shards k).evmState := by
  have isolated := isolated_of_run confined (regular.prepared reads k) (regular.eventsRun k)
  obtain ⟨state, reached, whole, -⟩ := isolated.serial
  rw [included_node] at reached
  rw [reached]
  exact congrArg some (whole rfl).symm

/-! ## Conflicts -/

/-- The height of the block that decides `x`. -/
def decisionHeight (c : OrchestratorChain) (x : TxID) : Option Nat :=
  (c.blocks.find? fun block => x ∈ block.tpcResult).map OrchestratorShardBlock.height

/-- Both transactions read one slot of shard `k`. -/
def Conflict (k : Int) (s t : CrossShardTx) : Prop :=
  ∃ a slot, ReadsSlot (lockTx k s) a slot ∧ ReadsSlot (lockTx k t) a slot

/-- `s` and `t` are committed, and some shard on which they conflict has locked `s` first. -/
structure Precedes (net : Cluster) (s t : CrossShardTx) : Prop where
  orders : s ∈ net.service.chain.orders ∧ t ∈ net.service.chain.orders
  committed : net.service.chain.Decided s.id true ∧ net.service.chain.Decided t.id true
  different : s.id ≠ t.id
  locked : ∃ k, Conflict k s t ∧ [lockTx k s, lockTx k t].Sublist (executionOrder net k)

/-- At some time in the past `s` was decided and `t` was not committed. -/
theorem Regular.decided_first (confined : StorageConfined E.vm)
    (regular : Regular E numShards evm as net)
    (reads : ∀ t ∈ net.service.chain.orders, WritesRead t) {k : Int} {s t : CrossShardTx}
    (different : s.id ≠ t.id) (conflict : Conflict k s t)
    (order : [lockTx k s, lockTx k t].Sublist (executionOrder net k)) :
    ∃ c : OrchestratorChain, c.blocks <+: net.service.chain.blocks ∧
      (∃ commit, c.Decided s.id commit) ∧ ¬c.Decided t.id true := by
  have prepared := regular.prepared reads k
  obtain ⟨a, slot, reads₁, reads₂⟩ := conflict
  obtain ⟨es₁, es₂, whole, decided⟩ := decided_before_lock confined prepared (regular.eventsRun k)
    different reads₁ reads₂ (included_node net k ▸ order)
  obtain ⟨as₁, mid, early, grown, late, rfl, -, stands⟩ := regular.split whole
  refine ⟨mid.service.chain, grown, decided_of_verdict early stands decided, fun committed => ?_⟩
  -- a commit would rest on a vote of shard `k`, whose `Lock` of `t` is only now executed
  have reached := regular.eventsRun k
  rw [whole] at reached prepared
  obtain ⟨m, before, rest⟩ := run_append_eq_some.1 reached
  obtain ⟨m', stepped, -⟩ := run_cons_eq_some.1 rest
  have traced := traced_of_run prepared.of_append.disciplined before
  have waits := (taken_of_step stepped).waits
  obtain ⟨t₁, known, involved, same⟩ := traced.lock_of_kind (mem_ledger_of_outstanding waits) rfl
  have ids : t₁.id = t.id := (congrArg Transaction.crossShardTxID same).symm
  have known' : t₁ ∈ net.service.chain.orders := by
    apply regular.ordered_subset k
    rw [whole]
    exact mem_ordered_append known _
  obtain ⟨t₂, logged, own, voted⟩ := early.voted (.inr committed)
  obtain rfl : t₂ = t₁ := regular.order_unique (OrchestratorChain.mem_orders_mono logged grown)
    known' (own.trans ids.symm)
  have isolated := isolated_of_run confined prepared.of_append.of_append (early.eventsRun k)
  obtain ⟨t₃, ordered₃, own₃, done, -⟩ := isolated.voted t.id (.inr (voted k involved))
  obtain rfl : t₃ = t₂ := prepared.of_append.disciplined.unique
    (mem_ordered_append ordered₃ late) known (own₃.trans ids.symm)
  exact traced.lock_not_executed prepared.of_append.disciplined waits rfl
    (same ▸ mem_executed_append done late)

theorem Regular.decisionHeight_eq (regular : Regular E numShards evm as net) {x : TxID}
    {block : OrchestratorShardBlock} (listed : block ∈ net.service.chain.blocks)
    (found : x ∈ block.tpcResult) :
    decisionHeight net.service.chain x = some block.height := by
  obtain ⟨J, tracked, -⟩ := tracked_of_run regular.reached regular.distinct
  have some_block : (net.service.chain.blocks.find? fun b => x ∈ b.tpcResult).isSome :=
    List.find?_isSome.2 ⟨block, listed, decide_eq_true found⟩
  obtain ⟨first, search⟩ := Option.isSome_iff_exists.1 some_block
  have inside : x ∈ first.tpcResult := by simpa using List.find?_some search
  rw [decisionHeight, search,
    tracked.result_block regular.distinct (List.mem_of_find?_eq_some search) inside listed found]
  rfl

theorem Regular.precedes_height (confined : StorageConfined E.vm)
    (regular : Regular E numShards evm as net)
    (reads : ∀ t ∈ net.service.chain.orders, WritesRead t) {s t : CrossShardTx}
    (precedes : Precedes net s t) :
    ∃ h h', decisionHeight net.service.chain s.id = some h ∧
      decisionHeight net.service.chain t.id = some h' ∧ h < h' := by
  obtain ⟨k, conflict, order⟩ := precedes.locked
  obtain ⟨c, ⟨later, grown⟩, ⟨commit, A, early, decided⟩, open_⟩ := regular.decided_first confined
    reads precedes.different conflict order
  obtain ⟨B, listed, committed⟩ := precedes.committed.2
  have early' : A ∈ net.service.chain.blocks := grown ▸ List.mem_append_left _ early
  refine ⟨A.height, B.height, regular.decisionHeight_eq early' (mem_of_lookup_eq_some decided),
    regular.decisionHeight_eq listed (mem_of_lookup_eq_some committed), ?_⟩
  have rising := (numbered_of_run regular.reached).rising regular.bounded
  rw [← grown, List.pairwise_append] at rising
  rw [← grown] at listed
  refine rising.2.2 A early B ((List.mem_append.1 listed).resolve_left fun old => ?_)
  exact open_ ⟨B, old, committed⟩

theorem involved_of_reads {k : Int} {t : CrossShardTx} {a : Address} {slot : Hash}
    (reads : ReadsSlot (lockTx k t) a slot) : k ∈ t.involvedShards := by
  obtain ⟨p, member, -, -⟩ := reads
  obtain ⟨rw, listed, -⟩ := List.mem_flatMap.1 member
  obtain ⟨inside, own⟩ := List.mem_filter.1 listed
  exact CrossShardTx.mem_involvedShards.2 (.inr ⟨rw, inside, of_decide_eq_true own⟩)

/-- The blocks of an involved shard contain the `Lock` of a committed transaction. -/
theorem Regular.lock_mem (regular : Regular E numShards evm as net) {k : Int} {t : CrossShardTx}
    (member : t ∈ net.service.chain.orders) (committed : net.service.chain.Decided t.id true)
    (involved : k ∈ t.involvedShards) : lockTx k t ∈ executionOrder net k := by
  obtain ⟨t', logged, own, voted⟩ := regular.voted (.inr committed)
  obtain rfl := regular.order_unique logged member own
  have commits := (regular.disciplined k).commits
  obtain ⟨tx, inside, kind, id⟩ :=
    yesLocked_of_run commits (regular.eventsRun k) t'.id (.inr (voted k involved))
  obtain ⟨pre, post, split⟩ := List.append_of_mem inside
  obtain ⟨es₁, es₂, m, m', whole, early, stepped, -⟩ :=
    included_split commits (regular.eventsRun k) split
  have disciplined := regular.disciplined k
  have orders := regular.ordered_subset k
  rw [whole] at disciplined orders
  obtain ⟨t₁, known, -, rfl⟩ := (traced_of_run disciplined.of_append early).lock_of_kind
    (mem_ledger_of_outstanding (taken_of_step stepped).waits) kind
  have same : t₁ = t' := regular.order_unique (orders t₁ (mem_ordered_append known _)) member id
  rw [← included_node, ← same]
  exact inside

theorem pair_sublist {α : Type} {a b : α} {l : List α} (first : a ∈ l) (second : b ∈ l)
    (different : a ≠ b) : [a, b].Sublist l ∨ [b, a].Sublist l := by
  obtain ⟨front, back, rfl⟩ := List.append_of_mem first
  rcases List.mem_append.1 second with before | after
  · right
    exact (List.singleton_sublist.2 before).append
      (List.singleton_sublist.2 List.mem_cons_self)
  · left
    refine (List.Sublist.cons_cons a (List.singleton_sublist.2 ?_)).trans
      (List.sublist_append_right front _)
    exact (List.mem_cons.1 after).resolve_left (Ne.symm different)

/-- **The cluster is conflict serializable.**  In a regular run, where write sets are among the
read sets and calls write storage only at their callee: of two committed transactions that read one
slot of a shard, that shard has locked one before the other; the order that all shards give
together to the committed transactions goes with the heights of their decisions; and so it has no
cycle. -/
theorem conflicts_follow_decisions (confined : StorageConfined E.vm)
    (regular : Regular E numShards evm as net)
    (reads : ∀ t ∈ net.service.chain.orders, WritesRead t) :
    (∀ s t k, s ∈ net.service.chain.orders → t ∈ net.service.chain.orders →
      net.service.chain.Decided s.id true → net.service.chain.Decided t.id true →
      s.id ≠ t.id → Conflict k s t → Precedes net s t ∨ Precedes net t s) ∧
    (∀ s t, Relation.TransGen (Precedes net) s t →
      ∃ h h', decisionHeight net.service.chain s.id = some h ∧
        decisionHeight net.service.chain t.id = some h' ∧ h < h') ∧
    ∀ t, ¬Relation.TransGen (Precedes net) t t := by
  have heights : ∀ s t, Relation.TransGen (Precedes net) s t →
      ∃ h h', decisionHeight net.service.chain s.id = some h ∧
        decisionHeight net.service.chain t.id = some h' ∧ h < h' := by
    intro s t path
    induction path with
    | single precedes => exact regular.precedes_height confined reads precedes
    | tail _ precedes ih =>
        obtain ⟨h, h₁, first, second, less⟩ := ih
        obtain ⟨h₁', h₂, second', third, less'⟩ := regular.precedes_height confined reads precedes
        rw [second] at second'
        cases second'
        exact ⟨h, h₂, first, third, less.trans less'⟩
  refine ⟨fun s t k member member' committed committed' different conflict => ?_, heights,
    fun t cycle => ?_⟩
  · obtain ⟨a, slot, reads₁, reads₂⟩ := conflict
    have locks : lockTx k s ≠ lockTx k t :=
      fun same => different (congrArg Transaction.crossShardTxID same)
    refine (pair_sublist (regular.lock_mem member committed (involved_of_reads reads₁))
      (regular.lock_mem member' committed' (involved_of_reads reads₂)) locks).imp ?_ ?_
    · intro order
      exact ⟨⟨member, member'⟩, ⟨committed, committed'⟩, different,
        k, ⟨a, slot, reads₁, reads₂⟩, order⟩
    · intro order
      exact ⟨⟨member', member⟩, ⟨committed', committed⟩, different.symm,
        k, ⟨a, slot, reads₂, reads₁⟩, order⟩
  · obtain ⟨h, h', first, second, less⟩ := heights t t cycle
    rw [first] at second
    cases second
    exact lt_irrefl h less

/-! ## The moment of the decision -/

/-- A shard that has not processed a commit holds what it has validated. -/
theorem Regular.held_of_committed (confined : StorageConfined E.vm)
    (regular : Regular E numShards evm as net)
    (reads : ∀ t ∈ net.service.chain.orders, WritesRead t) {t : CrossShardTx}
    (member : t ∈ net.service.chain.orders) (committed : net.service.chain.Committed t.id) {k : Int}
    (involved : k ∈ t.involvedShards)
    (fresh : (net.shards k).chain.isCommitProcessed t.id = false) :
    Held k (net.shards k).node t := by
  obtain ⟨t', logged, own, voted⟩ := regular.voted committed
  obtain rfl := regular.order_unique logged member own
  have traced := traced_of_run (regular.disciplined k) (regular.eventsRun k)
  have isolated := isolated_of_run confined (regular.prepared reads k) (regular.eventsRun k)
  obtain ⟨t₁, known, same, -, held⟩ := isolated.voted t'.id (.inr (voted k involved))
  obtain rfl := regular.order_unique (regular.ordered_subset k t₁ known) member same
  apply held
  have mark := traced.marked t₁.id
  rw [show (net.shards k).node.chain.isCommitProcessed t₁.id = false from fresh] at mark
  simpa using mark.symm

/-- A result that waits for its block has reached no shard. -/
theorem Regular.unprocessed_of_pending (regular : Regular E numShards evm as net) {x : TxID}
    {commit : Bool} (pending : net.service.chain.pendingResult.lookup x = some commit) (k : Int) :
    (net.shards k).chain.isCommitProcessed x = false := by
  obtain ⟨J, tracked, -⟩ := tracked_of_run regular.reached regular.distinct
  have mark := (traced_of_run (regular.disciplined k) (regular.eventsRun k)).marked x
  cases heard : verdict (eventsOf E (Cluster.start numShards evm) k as) x with
  | none =>
      rw [heard] at mark
      exact mark
  | some commit' =>
      exact absurd (regular.decided_of_decision (verdict_mem heard))
        (tracked.pending_undecided regular.distinct pending)

/-- **What a commit has read is current.**  From the moment the orchestrator decides to commit `t`,
and on each involved shard until that shard has processed the decision, every slot that `t` has
read there is locked for `t` and has the value that `t` has read.  As long as the decision waits for
its block, no shard has processed it, so this holds on all involved shards at once. -/
theorem committed_reads_current (confined : StorageConfined E.vm)
    (regular : Regular E numShards evm as net)
    (reads : ∀ t ∈ net.service.chain.orders, WritesRead t) {t : CrossShardTx}
    (member : t ∈ net.service.chain.orders) (committed : net.service.chain.Committed t.id) :
    (∀ k ∈ t.involvedShards, (net.shards k).chain.isCommitProcessed t.id = false →
      ∀ p ∈ readItems (t.localRwSet k),
        (net.shards k).chain.slotHolder p.1 p.2.slot = some t.id ∧
        (net.shards k).evmState.getStorageAt p.1 p.2.slot = bytesToHash p.2.value) ∧
    (net.service.chain.pendingResult.lookup t.id = some true →
      ∀ k, (net.shards k).chain.isCommitProcessed t.id = false) := by
  refine ⟨fun k involved fresh p listed => ?_, regular.unprocessed_of_pending⟩
  have held := regular.held_of_committed confined reads member committed involved fresh
  exact ⟨held.slots p listed, held.values p listed⟩

end Runs

namespace CounterPole

def alice : Address := 0x100
def counter : Address := 0x301

def empty : EVMState := ⟨fun _ => 0, fun _ _ => 0, fun _ => []⟩

def engines : Engines where
  vm := ⟨fun e _ _ _ _ _ => .ok e⟩
  simulateCall := fun _ _ _ _ _ _ => .error ""
  evmCall := fun _ _ _ _ _ => .done ⟨0, none⟩

/-- A call from shard 0 that reads the counter on shard 1 and adds one. -/
def increment (id : TxID) (old new : List UInt8) : CrossShardTx where
  id := id
  fromShard := 0
  fromAddr := alice
  toAddr := counter
  value := some 0
  data := [1]
  rwSet := [⟨counter, ⟨1⟩, [⟨0, old⟩], [⟨0, old, new⟩]⟩]

def first : CrossShardTx := increment "tx-1" [] [1]
def second : CrossShardTx := increment "tx-2" [1] [2]

def results (id : TxID) : AList fun _ : TxID => Bool := (∅ : AList _).insert id true

def block1 : OrchestratorShardBlock := ⟨1, ∅, [first]⟩
def block2 : OrchestratorShardBlock := ⟨2, results "tx-1", [second]⟩
def block3 : OrchestratorShardBlock := ⟨3, results "tx-2", []⟩

def round (height : Nat) (id : TxID) (block : OrchestratorShardBlock) : List Action :=
  [.produce, .deliver 1 block, .deliver 0 block, .shardProduce 0 (some 0), .shardProduce 1 (some 0),
    .report 1 height (results id), .report 0 height (results id)]

/-- Both increments up to the decision on the second. -/
def decided : List Action :=
  .submit "" first :: round 1 "tx-1" block1 ++ .submit "" second :: round 2 "tx-2" block2

/-- ... and up to its execution. -/
def counted : List Action :=
  decided ++ [.produce, .deliver 1 block3, .shardProduce 1 (some 0)]

theorem confined : StorageConfined engines.vm := by
  rintro e caller callee data gas value e' ⟨⟩ a other
  rfl

end CounterPole

open CounterPole in
/-- The second increment finds what the first has written. -/
theorem counter_refines_serial :
    ∃ net, Regular engines 2 (fun _ => empty) counted net ∧
      (executionOrder net 1).map Transaction.txType =
        [.lock, .crossWriteSet, .finalize, .unlock, .lock, .crossWriteSet, .finalize, .unlock] ∧
      (net.shards 1).evmState.getStorageAt counter 0 = 2 ∧
      run (serialStep engines.vm) empty (executionOrder net 1) = some (net.shards 1).evmState := by
  have regular : Regular engines 2 (fun _ => empty) counted _ :=
    ⟨rfl, by decide, by decide +kernel, by decide +kernel⟩
  refine ⟨_, regular, by decide +kernel, by decide +kernel, ?_⟩
  exact shards_refine_serial confined regular (by decide +kernel) 1

open CounterPole in
/-- Shard 1 has locked the counter for the first increment first. -/
theorem counter_follows_decisions :
    ∃ net, Regular engines 2 (fun _ => empty) counted net ∧
      (Precedes net first second ∨ Precedes net second first) ∧
      ¬Relation.TransGen (Precedes net) first first := by
  have regular : Regular engines 2 (fun _ => empty) counted _ :=
    ⟨rfl, by decide, by decide +kernel, by decide +kernel⟩
  obtain ⟨ordered, -, acyclic⟩ := conflicts_follow_decisions confined regular (by decide +kernel)
  refine ⟨_, regular, ?_, acyclic first⟩
  refine ordered first second 1 (by decide +kernel) (by decide +kernel) (by decide +kernel)
    (by decide +kernel) (by decide +kernel) ⟨counter, 0, ?_, ?_⟩
  · exact ⟨(counter, ⟨0, []⟩), by decide, rfl, rfl⟩
  · exact ⟨(counter, ⟨0, [1]⟩), by decide, rfl, rfl⟩

open CounterPole in
/-- When the second increment is decided, the counter is locked for it and is 1. -/
theorem counter_current_at_decision :
    ∃ net, Regular engines 2 (fun _ => empty) decided net ∧
      net.service.chain.pendingResult.lookup "tx-2" = some true ∧
      ∀ k ∈ second.involvedShards, ∀ p ∈ readItems (second.localRwSet k),
        (net.shards k).chain.slotHolder p.1 p.2.slot = some "tx-2" ∧
        (net.shards k).evmState.getStorageAt p.1 p.2.slot = bytesToHash p.2.value := by
  have regular : Regular engines 2 (fun _ => empty) decided _ :=
    ⟨rfl, by decide, by decide +kernel, by decide +kernel⟩
  obtain ⟨current, unprocessed⟩ := committed_reads_current confined regular (by decide +kernel)
    (by decide +kernel : second ∈ _) (by decide +kernel)
  refine ⟨_, regular, by decide +kernel, fun k involved => ?_⟩
  exact current k involved (unprocessed (by decide +kernel) k)

end CrossShard.Network
