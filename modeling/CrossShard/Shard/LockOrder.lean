/-
# Shard.LockOrder -- lock conflicts follow the orchestrator's order

Shards take in the blocks of one orchestrator at their own pace and produce their own
blocks in between, so the same transactions meet in different local blocks.  The queue is
first in, first out, the sort by priority is stable and blocks are taken in by height:
`Lock` transactions therefore execute in the order of the log on every shard.

* `locks_in_order`: the `Lock`s executed and waiting are those of the ordered
  transactions, in their order.
* `Fed.precedes_of_rejected`: who holds the slot comes first in the log.
* `conflicts_in_orchestrator_order`: so no two transactions refuse each other.

All this takes block productions that complete: when `EVMState.Commit` fails, the same `Lock`s are
executed a second time, after the later ones (`failed_commit_turns_conflict`).
-/
import CrossShard.Shard.ExactlyOnce

namespace CrossShard.Shard

set_option autoImplicit false

open CrossShard.Library CrossShard.Protocol

/-! ## The order of the log -/

/-- `y` precedes `x`: its block is lower, or it stands earlier in the `CtToOrder` of one. -/
def Log.Precedes (log : Log) (y x : TxID) : Prop :=
  (∃ b ∈ log.blocks, ∃ b' ∈ log.blocks, b.height < b'.height ∧
    y ∈ b.ctToOrder.map CrossShardTx.id ∧ x ∈ b'.ctToOrder.map CrossShardTx.id) ∨
  ∃ b ∈ log.blocks, [y, x].Sublist (b.ctToOrder.map CrossShardTx.id)

/-- An ID is ordered in one block only. -/
theorem Log.block_unique (log : Log) {b b' : OrchestratorShardBlock} {x : TxID}
    (listed : b ∈ log.blocks) (listed' : b' ∈ log.blocks)
    (member : x ∈ b.ctToOrder.map CrossShardTx.id)
    (member' : x ∈ b'.ctToOrder.map CrossShardTx.id) : b = b' := by
  have distinct := log.distinct
  rw [List.map_flatMap, List.nodup_flatMap] at distinct
  by_contra different
  have : Std.Symm (Function.onFun List.Disjoint
      fun b : OrchestratorShardBlock => b.ctToOrder.map CrossShardTx.id) :=
    ⟨fun _ _ apart => List.Disjoint.symm apart⟩
  exact distinct.2.forall listed listed' different member member'

theorem Log.nodup_of_block (log : Log) {b : OrchestratorShardBlock} (listed : b ∈ log.blocks) :
    (b.ctToOrder.map CrossShardTx.id).Nodup := by
  have distinct := log.distinct
  rw [List.map_flatMap, List.nodup_flatMap] at distinct
  exact distinct.1 b listed

/-- In a list without repetitions two elements stand in one order. -/
theorem pair_order_unique {l : List TxID} {x y : TxID} (nodup : l.Nodup)
    (first : [y, x].Sublist l) : ¬[x, y].Sublist l := by
  intro second
  induction l with
  | nil => cases first
  | cons z l ih =>
      obtain ⟨fresh, nodup⟩ := List.nodup_cons.1 nodup
      cases first with
      | cons _ first =>
          cases second with
          | cons _ second => exact ih nodup first second
          | cons_cons _ second => exact fresh (first.subset (by simp))
      | cons_cons _ first =>
          cases second with
          | cons _ second => exact fresh (second.subset (by simp))
          | cons_cons _ second => exact fresh (first.subset (by simp))

theorem Log.precedes_asymm {log : Log} {x y : TxID} (first : log.Precedes y x) :
    ¬log.Precedes x y := by
  intro second
  rcases first with ⟨b, listed, b', listed', lower, member, member'⟩ | ⟨b, listed, order⟩
  · rcases second with ⟨d, listing, d', listing', lower', inD, inD'⟩ | ⟨d, listing, order'⟩
    · have same := log.block_unique listed listing' member inD'
      have same' := log.block_unique listed' listing member' inD
      subst same same'
      omega
    · have same := log.block_unique listed listing member (order'.subset (by simp))
      have same' := log.block_unique listed' listing member' (order'.subset (by simp))
      subst same same'
      omega
  · rcases second with ⟨d, listing, d', listing', lower', inD, inD'⟩ | ⟨d, listing, order'⟩
    · have same := log.block_unique listed listing' (order.subset (by simp)) inD'
      have same' := log.block_unique listed listing (order.subset (by simp)) inD
      subst same same'
      omega
    · have same := log.block_unique listed listing (x := x) (order.subset (by simp))
        (order'.subset (by simp))
      subst same
      exact pair_order_unique (log.nodup_of_block listed) order order'

/-- A pair in a concatenation lies in one part, or in two parts in that order. -/
theorem pair_sublist_flatMap {α β : Type} {f : α → List β} {l : List α} {y x : β}
    (pair : [y, x].Sublist (l.flatMap f)) :
    (∃ a ∈ l, [y, x].Sublist (f a)) ∨ ∃ a a', [a, a'].Sublist l ∧ y ∈ f a ∧ x ∈ f a' := by
  induction l with
  | nil => cases pair
  | cons a l ih =>
      rw [List.flatMap_cons, List.sublist_append_iff] at pair
      obtain ⟨left, right, parts, inside, later⟩ := pair
      match left, parts with
      | [], parts =>
          subst parts
          rcases ih later with ⟨b, member, found⟩ | ⟨b, b', order, found⟩
          · exact Or.inl ⟨b, List.mem_cons_of_mem _ member, found⟩
          · exact Or.inr ⟨b, b', order.cons a, found⟩
      | [_], parts =>
          cases parts
          obtain ⟨b, member, found⟩ := List.mem_flatMap.1 (later.subset (List.mem_singleton_self x))
          exact Or.inr ⟨a, b, (List.singleton_sublist.2 member).cons_cons a,
            inside.subset (by simp), found⟩
      | [_, _], parts =>
          cases parts
          exact Or.inl ⟨a, by simp, inside⟩

/-- Blocks taken in by height keep the order of the log. -/
theorem Log.precedes_of_taken {log : Log} {taken : List OrchestratorShardBlock} {x y : TxID}
    (listed : ∀ b ∈ taken, b ∈ log.blocks)
    (rising : taken.Pairwise fun b b' => b.height < b'.height)
    (pair : [y, x].Sublist ((taken.flatMap OrchestratorShardBlock.ctToOrder).map CrossShardTx.id)) :
    log.Precedes y x := by
  rw [List.map_flatMap] at pair
  rcases pair_sublist_flatMap pair with ⟨b, member, order⟩ | ⟨b, b', order, first, second⟩
  · exact Or.inr ⟨b, listed b member, order⟩
  · refine Or.inl ⟨b, listed b (order.subset (by simp)), b', listed b' (order.subset (by simp)),
      ?_, first, second⟩
    have apart := rising.sublist order
    simpa using apart

/-! ## `Lock`s execute in order -/

/-- **The `Lock`s of a shard follow the orders.** -/
theorem locks_in_order {shardID : Int} {vm : VM} {evm : EVMState} {es : List Event} {n : Node}
    (ok : Disciplined es) (reached : run (step vm) (Node.start shardID evm) es = some n) :
    (ledger es n).filter (fun tx => tx.txType = .lock) =
      ((ordered es).filter fun t => shardID ∈ t.involvedShards).map (Chain.lockTx shardID) := by
  refine run_invariant Disciplined (fun _ _ ok => ok.of_append)
    (fun es n => (ledger es n).filter (fun tx => tx.txType = .lock) =
      ((ordered es).filter fun t => shardID ∈ t.involvedShards).map (Chain.lockTx shardID))
    rfl ?_ es n ok reached
  intro es n e n' ok reached' inOrder stepped
  have traced := traced_of_run ok.of_append reached'
  have taken := taken_of_step stepped
  have commits : e ≠ .commitError := fun same => ok.commits (by simp [same])
  rw [filter_ledger es taken commits
      (fun tx kind => congrArg TxType.priority (of_decide_eq_true kind)),
    inOrder, traced.added_locks taken, ordered_append, List.filter_append, List.map_append]

/-- An executed `Lock` comes before one that waits. -/
theorem executed_before_waiting {shardID : Int} {vm : VM} {evm : EVMState} {es : List Event}
    {n : Node} (ok : Disciplined es)
    (reached : run (step vm) (Node.start shardID evm) es = some n) {held tx : Transaction}
    (done : held ∈ executed es) (doneKind : held.txType = .lock) (waiting : tx ∈ n.outstanding)
    (kind : tx.txType = .lock) :
    [held.crossShardTxID, tx.crossShardTxID].Sublist ((ordered es).map CrossShardTx.id) := by
  have pair : [held, tx].Sublist ((ledger es n).filter fun tx => tx.txType = .lock) := by
    rw [ledger, List.filter_append]
    exact (List.singleton_sublist.2 (List.mem_filter.2 ⟨done, by simpa using doneKind⟩)).append
      (List.singleton_sublist.2 (List.mem_filter.2 ⟨waiting, by simpa using kind⟩))
  rw [locks_in_order ok reached] at pair
  have ids := pair.map Transaction.crossShardTxID
  rw [List.map_map] at ids
  exact ids.trans (List.filter_sublist.map CrossShardTx.id)

/-! ## A slot that another transaction holds -/

namespace Chain

/-- The transaction because of whose slot lock the `Lock` transaction `tx` fails. -/
def lockConflict (c : Chain) (evm : EVMState) (tx : Transaction) : Option TxID :=
  if tx.txType = .lock then
    match c.reserveFunds evm tx with
    | none => none
    | some c₁ =>
        match (c₁.validateAndLockReadSet tx.crossShardTxID tx.rwSet evm).2 with
        | some (.slotLock _ _ lockedBy) => some lockedBy
        | _ => none
  else none

/-- The pass names a transaction that held the slot before the pass. -/
theorem lockReadItems_slotLock {evm : EVMState} {txID lockedBy : TxID} {c c' : Chain}
    {lockedSlots : List SlotKey} {items : List (Address × ReadSetItem)} {a : Address} {s : Hash}
    (failed : lockReadItems evm txID c lockedSlots items = (c', some (.slotLock a s lockedBy))) :
    lockedBy ≠ txID ∧ c.slotHolder a s = some lockedBy := by
  induction items generalizing c lockedSlots with
  | nil => cases failed
  | cons first rest ih =>
      obtain ⟨addr, item⟩ := first
      unfold lockReadItems at failed
      simp only at failed
      split at failed
      · cases failed
      · split at failed
        · rename_i err refused
          obtain ⟨holder, held, other, rfl⟩ := lockSlot_error refused
          cases failed
          exact ⟨other, held⟩
        · rename_i c₁ locked
          obtain ⟨other, held⟩ := ih failed
          refine ⟨other, ?_⟩
          rw [(lockSlot_ok locked).2.2] at held
          split at held
          · exact absurd (Option.some.inj held).symm other
          · exact held

theorem held_of_lockConflict {c : Chain} {evm : EVMState} {tx : Transaction} {y : TxID}
    (conflict : c.lockConflict evm tx = some y) :
    tx.txType = .lock ∧ ∃ a s, c.slotHolder a s = some y := by
  unfold lockConflict at conflict
  split at conflict
  · rename_i kind
    refine ⟨kind, ?_⟩
    split at conflict
    · cases conflict
    · rename_i c₁ reserves
      obtain ⟨rfl, -⟩ := reserveFunds_eq_some reserves
      split at conflict
      · rename_i a s lockedBy result
        cases conflict
        unfold validateAndLockReadSet at result
        split at result
        · rename_i c₂ err pass
          cases result
          have held := (lockReadItems_slotLock pass).2
          rw [reserved_eq] at held
          exact ⟨a, s, held⟩
        · cases result
      · cases conflict
  · cases conflict

end Chain

/-! ## Shards fed by one log -/

/-- A shard that has taken in blocks of the log, each above the ones before, with submissions
and completed block productions in between. -/
structure Fed (log : Log) where
  vm : VM
  shardID : Int
  evm : EVMState
  events : List Event
  node : Node
  reached : run (step vm) (Node.start shardID evm) events = some node
  intake : ∃ (blocks : List OrchestratorShardBlock) (high : Nat),
    (∀ b ∈ blocks, b ∈ log.blocks) ∧ TakesIn events 0 high blocks

namespace Fed

variable {log : Log}

/-- A server to which only blocks of the log are delivered, in any order, is fed by it. -/
def ofRequests (vm : VM) (simulate : Server.SimulateCall) (shardID : Int) (evm : EVMState)
    (rs : List Request) (s : Server) (delivered : Delivers (· ∈ log.blocks) rs)
    (served : run (Server.serve vm simulate) (Server.fresh shardID evm) rs = some s) :
    Fed log where
  vm := vm
  shardID := shardID
  evm := evm
  events := (Server.fresh shardID evm).history vm simulate rs
  node := ⟨s.chain, s.evmState, none⟩
  reached := Server.history_run served
  intake := by
    obtain ⟨taken, listed, takes⟩ := Server.takesIn_history (P := (· ∈ log.blocks))
      (by simp [BlockBuffer.All, Server.fresh, BlockBuffer.newBlockBuffer]) delivered served
    exact ⟨taken, _, listed, takes⟩

/-- The `Lock` of `x` fails on the shard because `y` holds a slot that it reads. -/
def RejectedBy (r : Fed log) (x y : TxID) : Prop :=
  ∃ pre tx post n, r.events = pre ++ .execute tx :: post ∧
    run (step r.vm) (Node.start r.shardID r.evm) pre = some n ∧
    tx.crossShardTxID = x ∧ n.chain.lockConflict n.evm tx = some y

theorem precedes_of_rejected (r : Fed log) {x y : TxID} (rejected : r.RejectedBy x y) :
    log.Precedes y x := by
  obtain ⟨pre, tx, post, n, split, before, rfl, conflict⟩ := rejected
  obtain ⟨blocks, high, listed, takes⟩ := r.intake
  have ok : Disciplined r.events := log.disciplined listed takes
  rw [split] at ok
  obtain ⟨kind, a, s, held⟩ := Chain.held_of_lockConflict conflict
  have traced := traced_of_run ok.of_append before
  obtain ⟨t, -, rfl, -, done⟩ := traced.tables.slots a s y held
  obtain ⟨n', stepped, -⟩ : ∃ n', step r.vm n (.execute tx) = some n' ∧
      run (step r.vm) n' post = some r.node := by
    exact run_cons_eq_some.1 (run_rest before (split ▸ r.reached))
  have waiting : tx ∈ n.outstanding := (taken_of_step stepped).waits
  have pair := executed_before_waiting ok.of_append before done rfl waiting kind
  refine Log.precedes_of_taken listed takes.rising ?_
  rw [← takes.orders, split, ordered_append, List.map_append]
  exact pair.trans (List.sublist_append_left ..)

end Fed

/-- **Conflicts are resolved in the order of the orchestrator.**  On every shard that takes in
blocks of the log by height, whatever it produces and executes in between, a `Lock` that fails
because of a held slot belongs to a later transaction than the holder; so no two transactions
refuse each other, on one shard or on two. -/
theorem conflicts_in_orchestrator_order (log : Log) :
    (∀ (r : Fed log) (x y : TxID), r.RejectedBy x y → log.Precedes y x) ∧
      ∀ (r₁ r₂ : Fed log) (x y : TxID), r₁.RejectedBy x y → ¬r₂.RejectedBy y x := by
  refine ⟨fun r x y rejected => r.precedes_of_rejected rejected, ?_⟩
  intro r₁ r₂ x y first second
  exact Log.precedes_asymm (r₁.precedes_of_rejected first) (r₂.precedes_of_rejected second)

namespace LockOrderPole

def vault : Address := 0x201

/-- A transaction that reads the first slot of the vault, on shard 1. -/
def reader (txID : TxID) : CrossShardTx where
  id := txID
  fromShard := 0
  fromAddr := 0x100
  toAddr := vault
  value := none
  rwSet := [⟨vault, ⟨1⟩, [⟨0, []⟩], []⟩]

def orders : Log := ⟨[⟨1, ∅, [reader "y"]⟩, ⟨2, ∅, [reader "x"]⟩], by decide, by decide⟩

def vm : VM := ⟨fun e _ _ _ _ _ => .ok e⟩

def simulate : Server.SimulateCall := fun _ _ _ _ _ _ => .error ""

def blank : EVMState := ⟨fun _ => 0, fun _ _ => 0, fun _ => []⟩

/-- Shard 1 gets both blocks, the later one first, before it produces one. -/
def requests : List Request :=
  [.deliver ⟨2, ∅, [reader "x"]⟩, .deliver ⟨1, ∅, [reader "y"]⟩, .produce 0]

theorem delivered : Delivers (· ∈ orders.blocks) requests := by
  intro block member
  simp only [requests, List.mem_cons, Request.deliver.injEq, List.not_mem_nil, or_false,
    reduceCtorEq] at member
  rcases member with rfl | rfl <;> simp [orders]

end LockOrderPole

open LockOrderPole in
/-- The later reader is refused, and no shard refuses the earlier one because of it. -/
theorem second_reader_is_refused :
    ∃ r : Fed orders, r.RejectedBy "x" "y" ∧ orders.Precedes "y" "x" ∧
      ∀ r' : Fed orders, ¬r'.RejectedBy "y" "x" := by
  obtain ⟨s, served⟩ : ∃ s, run (Server.serve vm simulate) (Server.fresh 1 blank) requests = some s :=
    ⟨_, rfl⟩
  have refused : ∃ pre tx post n,
      (Server.fresh 1 blank).history vm simulate requests = pre ++ .execute tx :: post ∧
      run (step vm) (Node.start 1 blank) pre = some n ∧ tx.crossShardTxID = "x" ∧
      n.chain.lockConflict n.evm tx = some "y" :=
    ⟨((Server.fresh 1 blank).history vm simulate requests).take 6, Chain.lockTx 1 (reader "x"),
      ((Server.fresh 1 blank).history vm simulate requests).drop 7, _, rfl, rfl, rfl,
      by decide +kernel⟩
  have rejected : (Fed.ofRequests vm simulate 1 blank requests s delivered served).RejectedBy
      "x" "y" := refused
  have order := conflicts_in_orchestrator_order orders
  exact ⟨_, rejected, order.1 _ _ _ rejected, fun r' => order.2 _ r' _ _ rejected⟩

namespace LockOrderPole

def till : Address := 0x202

/-- Reads the vault on shard 1, with one outdated value, and the till on shard 2. -/
def early : CrossShardTx := { reader "x" with
  rwSet := [⟨vault, ⟨1⟩, [⟨0, []⟩, ⟨1, [9]⟩], []⟩, ⟨till, ⟨2⟩, [⟨0, []⟩], []⟩] }

/-- Reads the same two first slots. -/
def late : CrossShardTx := { reader "y" with
  rwSet := [⟨vault, ⟨1⟩, [⟨0, []⟩], []⟩, ⟨till, ⟨2⟩, [⟨0, []⟩], []⟩] }

def both : OrchestratorShardBlock := ⟨1, ∅, [early, late]⟩

def oneBlock : Log := ⟨[both], by decide, by decide⟩

/-- Shard 1 executes both `Lock`s, its commit fails, and it begins again. -/
def failing : List Event :=
  blockEvents (Chain.newChain 1) both ++
    [.beginBlock, .execute (Chain.lockTx 1 early), .execute (Chain.lockTx 1 late), .commitError,
      .beginBlock]

/-- Shard 2 executes the first `Lock`. -/
def running : List Event :=
  blockEvents (Chain.newChain 2) both ++ [.beginBlock, .execute (Chain.lockTx 2 early)]

end LockOrderPole

open LockOrderPole in
/-- With one failed commit two transactions refuse each other: shard 1 grants the later one in the
first attempt and refuses the earlier one because of it in the second; shard 2 refuses the later
one because of the earlier. -/
theorem failed_commit_turns_conflict :
    oneBlock.Precedes "x" "y" ∧
    (run (step vm) (Node.start 1 blank) (failing ++ [.execute (Chain.lockTx 1 early)])).isSome ∧
    ((run (step vm) (Node.start 1 blank) failing).map fun n =>
        n.chain.lockConflict n.evm (Chain.lockTx 1 early)) = some (some "y") ∧
    (run (step vm) (Node.start 2 blank) (running ++ [.execute (Chain.lockTx 2 late)])).isSome ∧
    ((run (step vm) (Node.start 2 blank) running).map fun n =>
        n.chain.lockConflict n.evm (Chain.lockTx 2 late)) = some (some "x") := by
  refine ⟨.inr ⟨both, List.mem_singleton_self _, ?_⟩, ?_⟩
  · exact .refl _
  · decide +kernel

end CrossShard.Shard
