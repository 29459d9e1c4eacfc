/-
# Shard.FundIndex -- the two indexes of reserved funds

A reservation stands in two tables: under its transaction (`locked`) and in the list of its
address (`lockedByAddr`).  Locking a second time overwrites in the first table and appends to the
second, so an ID that is locked again while it still has a lock leaves an entry that no clearing
removes.  Without such a step the tables agree in every state.

* `Indexed.amount_eq_lockedTotal`: agreement, as sums.
* `Unreserved`: no step reserves for an ID that has a lock.
* `fund_indexes_agree`: every run of such steps.
* `second_prepare_leaves_phantom`: what a repeated request does.
-/
import CrossShard.Shard.Frame
import CrossShard.Shard.SlotTables

namespace CrossShard.Shard

set_option autoImplicit false

open CrossShard.Library CrossShard.Protocol

namespace Chain

/-! ## Sums -/

/-- What the lock of `txID` reserves at `a`. -/
def share (c : Chain) (a : Address) (txID : TxID) : Int :=
  match c.locked.get txID with
  | none => 0
  | some lock => if lock.address = a then lock.amount else 0

/-- The sum of the amounts of all locks at `a`. -/
def lockedTotal (c : Chain) (a : Address) : Int := ∑ txID ∈ c.locked.toFinmap.keys, c.share a txID

theorem Indexed.amount_eq_lockedTotal {c : Chain} (indexed : Indexed c) (a : Address) :
    c.getLockedAmountForAddress a = c.lockedTotal a := by
  have shares : (c.entriesAt a).map LockedEntry.amount =
      ((c.entriesAt a).map LockedEntry.txID).map (c.share a) := by
    rw [List.map_map]
    refine List.map_congr_left fun e member => ?_
    simp [share, indexed.entry a e member]
  rw [getLockedAmountForAddress_eq_sum, shares, ← List.sum_toFinset _ (indexed.nodup a)]
  refine Finset.sum_subset (fun txID member => ?_) fun txID _ unlisted => ?_
  · obtain ⟨e, listed, rfl⟩ := List.mem_map.1 (List.mem_toFinset.1 member)
    refine FMap.mem_keys_iff.2 ?_
    rw [indexed.entry a e listed]
    nofun
  · unfold share
    split
    · rfl
    · rename_i lock found
      refine if_neg fun here => unlisted ?_
      have member := indexed.lock txID lock found
      rw [here] at member
      exact List.mem_toFinset.2 (List.mem_map.2 ⟨_, member, rfl⟩)

/-! ## Steps -/

theorem Indexed.of_perm {c c' : Chain} (indexed : Indexed c)
    (locked : ∀ txID, c'.locked.get txID = c.locked.get txID)
    (entries : ∀ a, (c'.entriesAt a).Perm (c.entriesAt a)) : Indexed c' where
  entry a e member := by
    rw [locked]
    exact indexed.entry a e ((entries a).mem_iff.1 member)
  lock txID lock found := by
    rw [locked] at found
    exact (entries lock.address).mem_iff.2 (indexed.lock txID lock found)
  nodup a := (((entries a).map _).nodup_iff).2 (indexed.nodup a)

/-- The exported `ClearLock` swaps with the last entry, the internal one shifts. -/
theorem Indexed.clearLock {c : Chain} (indexed : Indexed c) (txID : TxID) :
    Indexed (c.clearLock txID) := by
  refine (indexed.clearLockLocked txID).of_perm (fun x => ?_) (entriesAt_clearLock_perm c txID)
  rw [clearLock_eq]

/-- The transaction asks for a reservation. -/
def Reserves (tx : Transaction) : Prop := tx.txType = .lock ∧ 0 < toBigInt tx.value

instance (tx : Transaction) : Decidable (Reserves tx) := inferInstanceAs (Decidable (_ ∧ _))

theorem Indexed.executeOne {vm : VM} {s s' : BlockState} {tx : Transaction}
    (indexed : s.chain.Indexed)
    (fresh : Reserves tx → s.chain.locked.get tx.crossShardTxID = none)
    (ran : s.executeOne vm tx = some s') : s'.chain.Indexed := by
  cases executed_of_executeOne ran with
  | skipped reason => exact indexed
  | granted kind chain lock result =>
      exact indexed.granted (fun positive => fresh ⟨kind, positive⟩) lock
  | refused kind chain lock result =>
      exact indexed.refused kind (fun positive => fresh ⟨kind, positive⟩) result
  | applied kind free evm ok => exact indexed.cleanupAfterExecution tx

end Chain

/-! ## Runs -/

/-- The requests that lock and clear directly, and the operations of the chain. -/
inductive FundStep where
  | lockFunds (txID : TxID) (addr : Address) (amount : Int)
  | clearLock (txID : TxID)
  | chain (step : ChainStep)

def FundStep.perform (c : Chain) : FundStep → Option Chain
  | lockFunds txID addr amount => some (c.lockFunds txID addr amount)
  | clearLock txID => some (c.clearLock txID)
  | chain step => step.perform c

/-- No reservation is made for an ID that has a lock: neither by a request nor, at its turn, by a
transaction of the block. -/
def Unreserved (c : Chain) : FundStep → Prop
  | .lockFunds txID _ _ => c.locked.get txID = none
  | .clearLock _ => True
  | .chain (.addTx _) => True
  | .chain (.produceBlock vm evm _) =>
      Along (BlockState.executeOne vm)
        (fun s tx => Chain.Reserves tx → s.chain.locked.get tx.crossShardTxID = none)
        ⟨c, evm, []⟩ (Chain.sortTransactionsByPriority c.currentTxs)

theorem indexed_newChain (shardID : Int) : (Chain.newChain shardID).Indexed := by
  constructor <;> simp [Chain.newChain, Chain.entriesAt]

theorem Chain.Indexed.perform {c c' : Chain} {step : FundStep} (indexed : c.Indexed)
    (unreserved : Unreserved c step) (performed : step.perform c = some c') : c'.Indexed := by
  cases step with
  | lockFunds txID addr amount =>
      cases performed
      exact indexed.lockFunds unreserved addr amount
  | clearLock txID =>
      cases performed
      exact indexed.clearLock txID
  | chain step =>
      cases step with
      | addTx tx =>
          cases performed
          exact Chain.SameFunds.indexed (c := c) (Chain.sameFunds_of_eq rfl rfl) indexed
      | produceBlock vm evm commit =>
          obtain ⟨p, produced, rfl⟩ := Option.map_eq_some_iff.1 performed
          rw [produceBlock_eq] at produced
          obtain ⟨s, ran, rfl⟩ := Option.map_eq_some_iff.1 produced
          rw [executeAll_eq_run] at ran
          have kept : s.chain.Indexed :=
            unreserved.invariant (fun s => s.chain.Indexed)
              (fun _ _ _ indexed fresh turn => indexed.executeOne fresh turn) indexed ran
          cases commit with
          | none => exact kept
          | some stateRoot =>
              exact Chain.SameFunds.indexed (c := s.chain) (Chain.sameFunds_of_eq rfl rfl) kept

/-- **The indexes agree.**  In every run in which no ID is reserved for again while it has a lock,
the amount that an address cannot spend is the sum of the locks at that address, in every state; an
ID without a lock has no entry in any list. -/
theorem fund_indexes_agree (shardID : Int) (steps : List FundStep) (c : Chain)
    (unreserved : Along FundStep.perform Unreserved (Chain.newChain shardID) steps)
    (ran : run FundStep.perform (Chain.newChain shardID) steps = some c) :
    (∀ a, c.getLockedAmountForAddress a = c.lockedTotal a) ∧
      ∀ txID, c.locked.get txID = none → ∀ a, ∀ entry ∈ c.entriesAt a, entry.txID ≠ txID := by
  have indexed : c.Indexed := unreserved.invariant Chain.Indexed
    (fun _ _ _ indexed fresh performed => indexed.perform fresh performed)
    (indexed_newChain shardID) ran
  exact ⟨indexed.amount_eq_lockedTotal, fun _ absent => indexed.unlisted absent⟩

namespace FundIndexPole

open LockOutcomePole

/-- A `Lock` for 60, a request for 30, and a cleared one. -/
def separate : List FundStep :=
  [.chain (.addTx (lockOf "tx-1")), .lockFunds "tx-2" alice 30, .lockFunds "tx-3" alice 10,
    .chain (.produceBlock vm funded (some 1)), .clearLock "tx-2"]

/-- The same request twice, and the clearing of its ID. -/
def repeated : List FundStep :=
  [.lockFunds "tx-1" alice 10, .lockFunds "tx-1" alice 10, .clearLock "tx-1"]

instance (c : Chain) : (step : FundStep) → Decidable (Unreserved c step)
  | .lockFunds txID _ _ => inferInstanceAs (Decidable (c.locked.get txID = none))
  | .clearLock _ => inferInstanceAs (Decidable True)
  | .chain (.addTx _) => inferInstanceAs (Decidable True)
  | .chain (.produceBlock vm evm _) => inferInstanceAs (Decidable
      (Along (BlockState.executeOne vm)
        (fun s tx => Chain.Reserves tx → s.chain.locked.get tx.crossShardTxID = none)
        ⟨c, evm, []⟩ (Chain.sortTransactionsByPriority c.currentTxs)))

end FundIndexPole

open LockOutcomePole FundIndexPole in
/-- Three reservations, of which one is cleared. -/
theorem separate_reservations_agree :
    ∃ c, run FundStep.perform (Chain.newChain 0) separate = some c ∧
      c.getLockedAmountForAddress alice = 70 ∧ c.lockedTotal alice = 70 := by
  obtain ⟨c, ran, amount⟩ : ∃ c, run FundStep.perform (Chain.newChain 0) separate = some c ∧
      c.getLockedAmountForAddress alice = 70 := ⟨_, rfl, by decide +kernel⟩
  obtain ⟨agree, -⟩ := fund_indexes_agree 0 separate c (by decide +kernel) ran
  exact ⟨c, ran, amount, (agree alice).symm.trans amount⟩

open LockOutcomePole FundIndexPole in
/-- **The repeated request.**  After the first two steps 20 are withheld for a lock of 10; after the
clearing 10 are withheld for no lock at all. -/
theorem second_prepare_leaves_phantom :
    (∃ c, run FundStep.perform (Chain.newChain 0) (repeated.take 2) = some c ∧
      c.getLockedAmountForAddress alice = 20 ∧ c.lockedTotal alice = 10) ∧
    ∃ c, run FundStep.perform (Chain.newChain 0) repeated = some c ∧
      c.getLockedAmountForAddress alice = 10 ∧ c.lockedTotal alice = 0 ∧
        c.locked.get "tx-1" = none := by
  refine ⟨⟨_, rfl, ?_⟩, _, rfl, ?_⟩ <;> decide +kernel

end CrossShard.Shard
