/-
# Shard.ExactlyOnce -- effects only on commit, and each at most once

Orchestrator blocks reach a shard in any order and any number of times.  Whatever the
deliveries, the blocks that are taken in have increasing heights, so their events are a
disciplined run and everything the shard executes is traced.

* `Log.disciplined`: what is taken in from a log orders every ID once.
* `effects_committed_once`: an effect executes after its transaction's commit, is exactly
  the one its transaction asks for, executes once, and writes only what its transaction
  lists for this shard.
-/
import CrossShard.Shard.Intake

namespace CrossShard.Shard

set_option autoImplicit false

open CrossShard.Library CrossShard.Protocol

/-! ## Logs -/

/-- Blocks of an orchestrator: one a height, and no ID ordered twice. -/
structure Log where
  blocks : List OrchestratorShardBlock
  heights : (blocks.map OrchestratorShardBlock.height).Nodup
  distinct : ((blocks.flatMap OrchestratorShardBlock.ctToOrder).map CrossShardTx.id).Nodup

/-- Blocks of increasing heights from a log are a part of it. -/
theorem Log.distinct_of_rising (log : Log) {taken : List OrchestratorShardBlock}
    (listed : ∀ block ∈ taken, block ∈ log.blocks)
    (rising : taken.Pairwise fun b b' => b.height < b'.height) :
    ((taken.flatMap OrchestratorShardBlock.ctToOrder).map CrossShardTx.id).Nodup := by
  have nodup : taken.Nodup := rising.imp fun lt same => by
    rw [same] at lt
    exact Nat.lt_irrefl _ lt
  obtain ⟨part, perm, sub⟩ := List.Nodup.subperm nodup listed
  have inner := (perm.flatMap_right OrchestratorShardBlock.ctToOrder).map CrossShardTx.id
  rw [← inner.nodup_iff]
  exact log.distinct.sublist ((sub.flatMap _).map _)

theorem Log.disciplined (log : Log) {es : List Event} {low high : Nat}
    {taken : List OrchestratorShardBlock} (listed : ∀ block ∈ taken, block ∈ log.blocks)
    (takes : TakesIn es low high taken) : Disciplined es where
  distinct := by
    rw [takes.orders]
    exact log.distinct_of_rising listed takes.rising
  commits := takes.commits

/-! ## Executed effects -/

/-- The transactions that move value or write storage for a cross-shard transaction. -/
def IsEffect (tx : Transaction) : Prop :=
  tx.txType = .crossDebit ∨ tx.txType = .crossCredit ∨ tx.txType = .crossWriteSet ∨
    tx.txType = .finalize

theorem IsEffect.priority_eq {tx : Transaction} (effect : IsEffect tx) :
    tx.txType.priority = 1 := by
  rcases effect with kind | kind | kind | kind <;> rw [kind] <;> rfl

section Executed

variable {shardID : Int} {vm : VM} {evm : EVMState} {es : List Event} {n : Node}

/-- Where a run executes a transaction, that transaction was waiting. -/
theorem traced_at {pre post : List Event} {tx : Transaction} (ok : Disciplined es)
    (reached : run (step vm) (Node.start shardID evm) es = some n)
    (split : es = pre ++ .execute tx :: post) :
    ∃ m m', run (step vm) (Node.start shardID evm) pre = some m ∧
      step vm m (.execute tx) = some m' ∧ Traced shardID pre m ∧ tx ∈ m.outstanding := by
  subst split
  obtain ⟨m, before, rest⟩ := run_append_eq_some.1 reached
  obtain ⟨m', stepped, -⟩ := run_cons_eq_some.1 rest
  exact ⟨m, m', before, stepped, traced_of_run ok.of_append before, (taken_of_step stepped).waits⟩

/-- **Only on commit.**  An effect executes after the commit of the transaction that causes it. -/
theorem effect_after_commit {pre post : List Event} {tx : Transaction} (ok : Disciplined es)
    (reached : run (step vm) (Node.start shardID evm) es = some n)
    (split : es = pre ++ .execute tx :: post) (effect : IsEffect tx) :
    verdict pre tx.crossShardTxID = some true ∧
      ∃ t ∈ ordered pre, t.id = tx.crossShardTxID ∧ Effect shardID t tx := by
  obtain ⟨m, m', -, -, traced, waits⟩ := traced_at ok reached split
  obtain ⟨t, known, committed, caused⟩ :=
    (traced.queued tx (mem_ledger_of_outstanding waits)).effect_of_priority effect.priority_eq
  rw [caused.id_eq]
  exact ⟨committed, t, known, rfl, caused⟩

/-- **At most once.**  Each kind of effect executes at most once for an ID. -/
theorem effect_executed_once (ok : Disciplined es)
    (reached : run (step vm) (Node.start shardID evm) es = some n) {kind : TxType}
    (first : kind.priority = 1) (txID : TxID) :
    ((executed es).filter fun tx => label tx = (kind, txID)).length ≤ 1 := by
  have once := (traced_of_run ok reached).effects
  rw [ledger, effectLabels_append] at once
  have count := List.nodup_iff_count_le_one.1 (List.nodup_append.1 once).1 (kind, txID)
  refine le_trans (le_of_eq ?_) count
  rw [effectLabels, List.count_eq_countP, List.countP_map, List.countP_filter,
    ← List.countP_eq_length_filter]
  apply List.countP_congr
  intro tx _
  have priority : label tx = (kind, txID) → tx.txType.priority = 1 := by
    intro same
    have kinds : tx.txType = kind := congrArg Prod.fst same
    rw [kinds, first]
  simpa using priority

/-- **Only its own writes.**  What a cross-shard operation changes in storage is a write item of
the transaction it belongs to, in an entry for this shard. -/
theorem write_of_change {pre post : List Event} {tx : Transaction} (ok : Disciplined es)
    (reached : run (step vm) (Node.start shardID evm) es = some n)
    (split : es = pre ++ .execute tx :: post) (cross : tx.txType ≠ .localTx) {m m' : Node}
    (before : run (step vm) (Node.start shardID evm) pre = some m)
    (stepped : step vm m (.execute tx) = some m') {a : Address} {slot : Hash}
    (changed : m'.evm.storage a slot ≠ m.evm.storage a slot) :
    ∃ t ∈ ordered pre, t.id = tx.crossShardTxID ∧
      ∃ rw ∈ t.rwSet, rw.referenceBlock.shardNum = shardID ∧
        ∃ w ∈ rw.writeSet, a = rw.address ∧ slot = w.slot ∧
          m'.evm.storage a slot = bytesToHash w.newValue := by
  obtain ⟨m₀, _, before₀, -, traced, waits⟩ := traced_at ok reached split
  rw [before] at before₀
  cases before₀
  -- a write set that changes the slot has its last write there
  have written : ∀ {t : CrossShardTx}, t ∈ ordered pre →
      m'.evm = m.evm.applyWriteSet (t.localRwSet shardID) → t.id = tx.crossShardTxID →
      ∃ t ∈ ordered pre, t.id = tx.crossShardTxID ∧
        ∃ rw ∈ t.rwSet, rw.referenceBlock.shardNum = shardID ∧
          ∃ w ∈ rw.writeSet, a = rw.address ∧ slot = w.slot ∧
            m'.evm.storage a slot = bytesToHash w.newValue := by
    intro t known applied id
    rw [applied, EVMState.storage_applyWriteSet] at changed
    rcases EVMState.lastWrite_cases (t.localRwSet shardID) a slot with
      none | ⟨rw, member, w, listed, here, there, last⟩
    · rw [none] at changed
      exact absurd rfl changed
    · obtain ⟨entry, home⟩ := List.mem_filter.1 member
      refine ⟨t, known, id, rw, entry, by simpa using home, w, listed, here, there, ?_⟩
      rw [applied, EVMState.storage_applyWriteSet, last, Option.getD_some]
  cases taken_of_step stepped with
  | skipped _ rest successful busy reason => exact absurd rfl changed
  | granted _ rest successful busy kind chain lock => exact absurd rfl changed
  | refused _ rest successful busy kind chain lock result => exact absurd rfl changed
  | applied _ rest successful busy kind free evm' ran =>
      cases traced.queued tx (mem_ledger_of_outstanding waits) with
      | submission _ kind unnamed => exact absurd kind cross
      | lock t known involved => exact absurd rfl kind
      | effect t known committed _ caused =>
          cases caused with
          | debit source =>
              have same : evm'.storage = m.evm.storage := EVMState.storage_debit ran
              exact absurd (congrFun (congrFun same a) slot) changed
          | credit home =>
              have same : evm'.storage = m.evm.storage := EVMState.storage_credit ran
              exact absurd (congrFun (congrFun same a) slot) changed
          | writeSet =>
              cases ran
              exact written known rfl rfl
          | finalize =>
              cases ran
              exact written known rfl rfl
      | unlock txID committed decided =>
          cases ran
          exact absurd rfl changed
      | abort txID aborted =>
          cases ran
          exact absurd rfl changed

end Executed

/-! ## Every delivery -/

/-- **Effects only on commit, and at most once.**  Deliver the blocks of a log to a fresh server
in any order and any number of times, with submissions and block productions in between.

* An effect that executes follows the commit that counts for its ID, which a block of the log
  carries, and is exactly what the ordered transaction of that ID asks of this shard: a debit
  of its value from its sender, a credit of its value to its recipient, or its write set.
* An ID whose counting decision is an abort has no effect.
* At most one debit and at most one credit executes for an ID.
* Whatever a cross-shard operation changes in storage is a write item of its transaction. -/
theorem effects_committed_once (log : Log) (vm : VM) (simulate : Server.SimulateCall)
    (shardID : Int) (evm : EVMState) (rs : List Request) (s : Server)
    (delivered : Delivers (· ∈ log.blocks) rs)
    (served : run (Server.serve vm simulate) (Server.fresh shardID evm) rs = some s) :
    let es := (Server.fresh shardID evm).history vm simulate rs
    (∀ pre tx post, es = pre ++ .execute tx :: post → IsEffect tx →
      verdict pre tx.crossShardTxID = some true ∧
      (∃ block ∈ log.blocks, block.tpcResult.lookup tx.crossShardTxID = some true) ∧
      ∃ t ∈ ordered pre, t.id = tx.crossShardTxID ∧ Effect shardID t tx) ∧
    (∀ txID, verdict es txID = some false → ∀ tx ∈ executed es, IsEffect tx →
      tx.crossShardTxID ≠ txID) ∧
    (∀ txID, ((executed es).filter fun tx => label tx = (.crossDebit, txID)).length ≤ 1 ∧
      ((executed es).filter fun tx => label tx = (.crossCredit, txID)).length ≤ 1) ∧
    ∀ pre tx post m m', es = pre ++ .execute tx :: post → tx.txType ≠ .localTx →
      run (step vm) (Node.start shardID evm) pre = some m →
      step vm m (.execute tx) = some m' → ∀ a slot,
      m'.evm.storage a slot ≠ m.evm.storage a slot →
      ∃ t ∈ ordered pre, t.id = tx.crossShardTxID ∧
        ∃ rw ∈ t.rwSet, rw.referenceBlock.shardNum = shardID ∧
          ∃ w ∈ rw.writeSet, a = rw.address ∧ slot = w.slot ∧
            m'.evm.storage a slot = bytesToHash w.newValue := by
  intro es
  obtain ⟨taken, listed, takes⟩ := Server.takesIn_history (P := (· ∈ log.blocks))
    (by simp [BlockBuffer.All, Server.fresh, BlockBuffer.newBlockBuffer]) delivered served
  have ok : Disciplined es := log.disciplined listed takes
  have reached : run (step vm) (Node.start shardID evm) es = some ⟨s.chain, s.evmState, none⟩ :=
    Server.history_run served
  refine ⟨?_, ?_, ?_, ?_⟩
  · intro pre tx post split effect
    obtain ⟨committed, caused⟩ := effect_after_commit ok reached split effect
    refine ⟨committed, ?_, caused⟩
    have decided : (tx.crossShardTxID, true) ∈ decisions es := by
      rw [split, decisions_append]
      exact List.mem_append_left _ (verdict_mem committed)
    rw [takes.results] at decided
    obtain ⟨block, member, entry⟩ := List.mem_flatMap.1 decided
    obtain ⟨⟨txID, value⟩, found, same⟩ := List.mem_map.1 entry
    cases same
    exact ⟨block, listed block member, AList.mem_lookup_iff.2 found⟩
  · intro txID aborted tx done effect same
    obtain ⟨pre, post, split⟩ : ∃ pre post, es = pre ++ .execute tx :: post := by
      obtain ⟨e, member, found⟩ := List.mem_filterMap.1 done
      cases e with
      | execute tx' =>
          cases found
          exact List.append_of_mem member
      | _ => cases found
    have committed := (effect_after_commit ok reached split effect).1
    rw [same] at committed
    rw [split, verdict_mono committed] at aborted
    cases aborted
  · intro txID
    exact ⟨effect_executed_once ok reached rfl txID, effect_executed_once ok reached rfl txID⟩
  · intro pre tx post m m' split cross before stepped a slot changed
    exact write_of_change ok reached split cross before stepped changed

namespace ExactlyOncePole

def alice : Address := 0x100
def carol : Address := 0x301

def funded : EVMState := ⟨fun a => if a = alice then 100 else 0, fun _ _ => 0, fun _ => []⟩

def payCarol : CrossShardTx where
  id := "tx-1"
  fromShard := 0
  fromAddr := alice
  toAddr := carol
  value := some 100
  rwSet := [⟨carol, ⟨1⟩, [], []⟩]

def orderBlock : OrchestratorShardBlock := ⟨1, ∅, [payCarol]⟩
def commitBlock : OrchestratorShardBlock := ⟨2, (∅ : AList _).insert "tx-1" true, []⟩

def payment : Log := ⟨[orderBlock, commitBlock], by decide, by decide⟩

/-- Both blocks of the payment are delivered twice. -/
def redelivered : List Request :=
  [.deliver orderBlock, .produce 0, .deliver orderBlock, .deliver commitBlock,
    .deliver commitBlock, .produce 0, .deliver commitBlock, .produce 0]

def vm : VM := ⟨fun e _ _ _ _ _ => .ok e⟩

def simulate : Server.SimulateCall := fun _ _ _ _ _ _ => .error ""

end ExactlyOncePole

open ExactlyOncePole in
/-- Alice pays once. -/
theorem redelivered_payment_debits_once :
    ∃ s, run (Server.serve vm simulate) (Server.fresh 0 funded) redelivered = some s ∧
      s.evmState.balance alice = 0 ∧
      ((executed ((Server.fresh 0 funded).history vm simulate redelivered)).filter fun tx =>
        label tx = (.crossDebit, "tx-1")).length = 1 := by
  refine ⟨_, rfl, by decide +kernel, Nat.le_antisymm ?_ (by decide +kernel)⟩
  refine ((effects_committed_once payment vm simulate 0 funded redelivered _ ?_ rfl).2.2.1 "tx-1").1
  intro block member
  simp only [redelivered, List.mem_cons, Request.deliver.injEq, List.not_mem_nil, or_false,
    reduceCtorEq, false_or] at member
  rcases member with rfl | rfl | rfl | rfl | rfl <;> simp [payment]

end CrossShard.Shard
