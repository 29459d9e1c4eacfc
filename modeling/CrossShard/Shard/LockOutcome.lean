/-
# Shard.LockOutcome -- a `Lock` takes all that it asks for, or nothing

One turn of the loop of `ProduceBlock` on a `Lock`, for a transaction that holds nothing yet:
`Lockable` says in the words of the request when it is granted, and `lock_all_or_nothing` says
what either outcome leaves in the tables.  The loop acquires item by item, repeated slots are
acquired twice and rolled back once, and the funds are reserved before the slots and undone
elsewhere; none of this shows in the outcome.

The clean-up after a successful transaction treats the empty ID as that of a local
transaction, so a `Lock` with the empty ID is granted without a vote
(`unnamed_lock_casts_no_vote`).
-/
import CrossShard.Shard.LockSpec

namespace CrossShard.Shard

set_option autoImplicit false

open CrossShard.Library CrossShard.Protocol

/-- The available balance covers the value, every read item has its recorded value, and no other
transaction holds its slot. -/
structure Lockable (c : Chain) (evm : EVMState) (tx : Transaction) : Prop where
  funds : toBigInt tx.value ≤ 0 ∨
    toBigInt tx.value ≤ (evm.balance tx.fromAddr).toNat - c.getLockedAmountForAddress tx.fromAddr
  values : ∀ rw ∈ tx.rwSet, ∀ item ∈ rw.readSet,
    bytesToHash item.value = evm.storage rw.address item.slot
  slots : ∀ rw ∈ tx.rwSet, ∀ item ∈ rw.readSet, ∀ holder,
    c.slotHolder rw.address item.slot = some holder → holder = tx.crossShardTxID

theorem mem_readItems {rwSet : List RwVariable} {p : Address × ReadSetItem} :
    p ∈ Chain.readItems rwSet ↔ ∃ rw ∈ rwSet, rw.address = p.1 ∧ p.2 ∈ rw.readSet := by
  obtain ⟨a, item⟩ := p
  simp only [Chain.readItems, List.mem_flatMap, List.mem_map, Prod.mk.injEq]
  constructor
  · rintro ⟨rw, member, item', listed, here, rfl⟩
    exact ⟨rw, member, here, listed⟩
  · rintro ⟨rw, member, here, listed⟩
    exact ⟨rw, member, item, listed, here, rfl⟩

/-- The request of a `Lock`, item by item and as the specification has it. -/
theorem lockable_iff_grants {c : Chain} {evm : EVMState} {tx : Transaction} :
    Lockable c evm tx ↔ c.locks.Grants evm tx := by
  have covered : (0 < toBigInt tx.value → evm.canDebit tx.fromAddr (toBigInt tx.value)
      (c.locks.amount tx.fromAddr) = true) ↔ (toBigInt tx.value ≤ 0 ∨ toBigInt tx.value ≤
        (evm.balance tx.fromAddr).toNat - c.getLockedAmountForAddress tx.fromAddr) := by
    rw [Chain.amount_locks, EVMState.canDebit, decide_eq_true_iff, imp_iff_not_or, not_lt]
  constructor
  · intro lockable
    refine ⟨covered.2 lockable.funds, fun p member => ?_, fun p member => ?_⟩
    · obtain ⟨rw, listed, here, item⟩ := mem_readItems.1 member
      rw [← here]
      exact (lockable.values rw listed p.2 item).symm
    · obtain ⟨rw, listed, here, item⟩ := mem_readItems.1 member
      rw [← here]
      exact lockable.slots rw listed p.2 item
  · intro grants
    refine ⟨covered.1 grants.covered, fun rw listed item member => ?_, fun rw listed item member => ?_⟩
    · exact (grants.matched (rw.address, item) (mem_readItems.2 ⟨rw, listed, rfl, member⟩)).symm
    · exact grants.free (rw.address, item) (mem_readItems.2 ⟨rw, listed, rfl, member⟩)

/-- What a granted `Lock` leaves. -/
structure HoldsAll (c : Chain) (tx : Transaction) : Prop where
  slots : ∀ a s, c.slotHolder a s = some tx.crossShardTxID ↔
    ∃ rw ∈ tx.rwSet, rw.address = a ∧ ∃ item ∈ rw.readSet, item.slot = s
  funds : c.locked.get tx.crossShardTxID =
    if 0 < toBigInt tx.value then some ⟨tx.fromAddr, toBigInt tx.value⟩ else none
  rwSet : c.pendingRwSets.get tx.crossShardTxID = some tx.rwSet

/-- What a refused `Lock` leaves: nothing of its transaction, and every reading of the lock
tables as it was. -/
structure HoldsNothing (c c' : Chain) (tx : Transaction) : Prop where
  forgotten : c'.Forgotten tx.crossShardTxID
  slots : ∀ a s, c'.slotHolder a s = c.slotHolder a s
  funds : ∀ x, c'.locked.get x = c.locked.get x
  entries : ∀ a, c'.entriesAt a = c.entriesAt a

section Outcome

variable {c c' : Chain} {evm : EVMState} {tx : Transaction}

theorem readsSlot_iff {a : Address} {s : Hash} :
    Chain.ReadsSlot tx a s ↔ ∃ rw ∈ tx.rwSet, rw.address = a ∧ ∃ item ∈ rw.readSet, item.slot = s := by
  constructor
  · rintro ⟨p, member, rfl, rfl⟩
    obtain ⟨rw, listed, here, item⟩ := mem_readItems.1 member
    exact ⟨rw, listed, here, p.2, item, rfl⟩
  · rintro ⟨rw, listed, rfl, item, member, rfl⟩
    exact ⟨(rw.address, item), mem_readItems.2 ⟨rw, listed, rfl, member⟩, rfl, rfl⟩

theorem holdsAll_of_granted (absent : c.locks.Absent tx.crossShardTxID)
    (lock : Chain.Granted c evm tx c') : HoldsAll c' tx where
  slots a s := by
    rw [← readsSlot_iff]
    by_cases reads : Chain.ReadsSlot tx a s
    · exact iff_of_true (lock.taken a s reads) reads
    · rw [lock.kept a s reads]
      exact iff_of_false (absent.slots a s) reads
  funds := by
    have funds : c'.locks.funds tx.crossShardTxID =
        (c.locks.grant tx).funds tx.crossShardTxID := by rw [Chain.locks_granted lock]
    change c'.locked.get tx.crossShardTxID = if _ then _ else c.locked.get tx.crossShardTxID at funds
    have none : c.locked.get tx.crossShardTxID = none := absent.funds
    rw [funds, none]
    simp only [and_true]
  rwSet := by
    rw [lock.chain]
    simp

theorem holdsNothing_of_refused (kind : tx.txType = .lock)
    (absent : c.locks.Absent tx.crossShardTxID) (lock : Chain.Refused c tx c')
    (result : c.executeLock evm tx = (c', false)) : HoldsNothing c c' tx := by
  have same := Chain.locks_refused kind absent lock result
  exact ⟨lock.forgotten, fun a s => congrFun (congrFun (congrArg Locks.slots same) a) s,
    fun x => congrFun (congrArg Locks.funds same) x, fun a => congrFun (congrArg Locks.entries same) a⟩

end Outcome

/-- **A `Lock` is all or nothing.**  It votes YES exactly when it can have all that it asks for;
then it holds exactly that.  Otherwise it votes NO, holds nothing, and leaves the lock tables as
they were.  The state does not change. -/
theorem lock_all_or_nothing (vm : VM) (s : BlockState) (tx : Transaction)
    (kind : tx.txType = .lock) (named : tx.crossShardTxID ≠ "")
    (absent : s.chain.locks.Absent tx.crossShardTxID) :
    ∃ s', s.executeOne vm tx = some s' ∧ s'.evm = s.evm ∧
      (s'.chain.prepares.get tx.crossShardTxID = some true ↔ Lockable s.chain s.evm tx) ∧
      (s'.chain.prepares.get tx.crossShardTxID = some true → HoldsAll s'.chain tx) ∧
      (s'.chain.prepares.get tx.crossShardTxID ≠ some true →
        s'.chain.prepares.get tx.crossShardTxID = some false ∧
          HoldsNothing s.chain s'.chain tx) := by
  have free : s.chain.checkLocalTxLockConflict tx = none := by
    simp [Chain.checkLocalTxLockConflict, kind]
  rcases s.chain.executeLock_cases s.evm kind with ⟨c', result, lock⟩ | ⟨c', result, lock⟩
  · have vote : c'.prepares.get tx.crossShardTxID = some true := by
      rw [lock.chain]
      simp [named]
    have lockable := lockable_iff_grants.2 (Chain.grants_of_granted lock)
    refine ⟨⟨c', s.evm, s.successfulTxs ++ [tx]⟩, ?_, rfl, iff_of_true vote lockable,
      fun _ => holdsAll_of_granted absent lock, fun no => absurd vote no⟩
    simp [BlockState.executeOne, free, kind, result]
  · have vote : c'.prepares.get tx.crossShardTxID = some false := by
      rw [lock.vote]
      simp
    have no : c'.prepares.get tx.crossShardTxID ≠ some true := by
      rw [vote]
      rintro ⟨⟩
    have stuck : ¬Lockable s.chain s.evm tx := by
      intro lockable
      have granted := Chain.executeLock_of_grants (lockable_iff_grants.1 lockable)
      rw [result] at granted
      cases granted
    refine ⟨⟨c', s.evm, s.successfulTxs⟩, ?_, rfl, iff_of_false no stuck,
      fun yes => absurd yes no, fun _ => ⟨vote, holdsNothing_of_refused kind absent lock result⟩⟩
    simp [BlockState.executeOne, free, kind, result]

namespace LockOutcomePole

def alice : Address := 0x100
def vault : Address := 0x110

def funded : EVMState := ⟨fun a => if a = alice then 100 else 0, fun _ _ => 0, fun _ => []⟩

def vm : VM := ⟨fun e _ _ _ _ _ => .ok e⟩

/-- A `Lock` that reserves 60 and reads one slot of the vault twice. -/
def lockOf (txID : TxID) : Transaction where
  txType := .lock
  crossShardTxID := txID
  isCrossShard := true
  fromAddr := alice
  value := some 60
  rwSet := [⟨vault, ⟨0⟩, [⟨7, []⟩, ⟨7, [0]⟩], []⟩]

def start : BlockState := ⟨Chain.newChain 0, funded, []⟩

theorem start_absent (txID : TxID) : start.chain.locks.Absent txID :=
  ⟨rfl, fun _ => nofun, fun _ _ => nofun⟩

end LockOutcomePole

open LockOutcomePole in
/-- The first `Lock` gets its funds and its slot. -/
theorem first_lock_granted :
    ∃ s', start.executeOne vm (lockOf "tx-1") = some s' ∧
      s'.chain.prepares.get "tx-1" = some true ∧ HoldsAll s'.chain (lockOf "tx-1") := by
  obtain ⟨s', ran, -, vote, all, -⟩ := lock_all_or_nothing vm start (lockOf "tx-1") rfl (by decide)
    (start_absent _)
  have lockable : Lockable start.chain start.evm (lockOf "tx-1") :=
    ⟨by decide +kernel, by decide +kernel, by decide +kernel⟩
  exact ⟨s', ran, vote.2 lockable, all (vote.2 lockable)⟩

open LockOutcomePole in
/-- With the empty ID the same `Lock` takes the funds and the slot, and casts no vote. -/
theorem unnamed_lock_casts_no_vote :
    Lockable start.chain start.evm (lockOf "") ∧
      ∃ s', start.executeOne vm (lockOf "") = some s' ∧ s'.chain.prepares.get "" = none ∧
        s'.chain.slotHolder vault 7 = some "" ∧ s'.chain.locked.get "" = some ⟨alice, 60⟩ := by
  refine ⟨⟨by decide +kernel, by decide +kernel, by decide +kernel⟩, _, rfl, ?_⟩
  decide +kernel

end CrossShard.Shard
