/-
# Shard.SlotTables -- slot locks and pending read/write sets describe each other

A granted `Lock` writes two tables: the holder of each slot that it reads, and its read/write
set.  Five kinds of clean-up take entries out of them again, through two routines that unlock
slots.  As long as every ID is locked by at most one `Lock`, a slot is held by `x` exactly
when the pending set of `x` reads it, and no address keeps an empty map of slots.

* `Tied`, `Packed`: the two halves of the invariant.
* `Bound.executeOne`: one turn of the loop of `ProduceBlock` keeps it.
* `slot_locks_are_pending_reads`: every reachable state.
-/
import CrossShard.Shard.LockOutcome
import CrossShard.Shard.ResultOrder

namespace CrossShard.Shard

set_option autoImplicit false

open CrossShard.Library CrossShard.Protocol

/-! ## The invariant -/

/-- The set has an entry for `a` whose read set contains `s`. -/
def ReadsFrom (rwSet : List RwVariable) (a : Address) (s : Hash) : Prop :=
  ∃ rw ∈ rwSet, rw.address = a ∧ ∃ item ∈ rw.readSet, item.slot = s

/-- `x` holds exactly the slots that its pending set reads. -/
def Chain.TiedFor (c : Chain) (x : TxID) : Prop :=
  ∀ a s, c.slotHolder a s = some x ↔
    ∃ rwSet, c.pendingRwSets.get x = some rwSet ∧ ReadsFrom rwSet a s

/-- No address has an empty map of slots. -/
def Packed (table : FMap Address (FMap Hash TxID)) : Prop :=
  ∀ a slots, table.get a = some slots → slots.len ≠ 0

section Packed

variable {c c' : Chain} {table : FMap Address (FMap Hash TxID)}

theorem Packed.delete (packed : Packed table) (addr : Address) : Packed (table.delete addr) := by
  intro a slots found
  rw [FMap.get_delete] at found
  split at found
  · cases found
  · exact packed a slots found

theorem Packed.set (packed : Packed table) (addr : Address) {slots : FMap Hash TxID}
    (some_left : slots.len ≠ 0) : Packed (table.set addr slots) := by
  intro a slots' found
  rw [FMap.get_set] at found
  split at found
  · cases found
    exact some_left
  · exact packed a slots' found

theorem Packed.lockSlot (packed : Packed c.slotLocks) {txID : TxID} {addr : Address} {slot : Hash}
    (locked : c.lockSlot txID addr slot = .ok c') : Packed c'.slotLocks := by
  unfold Chain.lockSlot at locked
  dsimp only at locked
  split at locked
  · split at locked
    · cases locked
    · cases locked
      exact packed
  · cases locked
    refine packed.set addr fun empty => ?_
    have missing := FMap.len_eq_zero.1 empty slot
    simp at missing

theorem Packed.unlockSlot (packed : Packed c.slotLocks) (txID : TxID) (addr : Address)
    (slot : Hash) : Packed (c.unlockSlot txID addr slot).slotLocks := by
  unfold Chain.unlockSlot
  split
  · exact packed
  · split
    · show Packed (Chain.putSlots _ _ _)
      unfold Chain.putSlots
      split
      · exact packed.delete addr
      · rename_i some_left
        exact packed.set addr some_left
    · exact packed

theorem Packed.rollback (packed : Packed c.slotLocks) (txID : TxID) (keys : List SlotKey) :
    Packed (c.rollback txID keys).slotLocks := by
  induction keys generalizing c with
  | nil => exact packed
  | cons key keys ih => exact ih (packed.unlockSlot txID key.addr key.slot)

theorem Packed.lockReadItems (packed : Packed c.slotLocks) (evm : EVMState) (txID : TxID)
    (keys : List SlotKey) (items : List (Address × ReadSetItem)) :
    Packed (Chain.lockReadItems evm txID c keys items).1.slotLocks := by
  induction items generalizing c keys with
  | nil => exact packed
  | cons item rest ih =>
      obtain ⟨addr, item⟩ := item
      unfold Chain.lockReadItems
      dsimp only
      split
      · exact packed.rollback txID keys
      · cases locked : c.lockSlot txID addr item.slot with
        | error err => exact packed.rollback txID keys
        | ok c₁ => exact ih (packed.lockSlot locked) _

/-- Releasing all slots of a transaction leaves no empty map, whatever there was. -/
theorem packed_unlockAllSlotsForTx (c : Chain) (txID : TxID) :
    Packed (c.unlockAllSlotsForTx txID).slotLocks := by
  intro a slots found
  change (c.slotLocks.filterMap fun _ slots => Chain.withoutHolder txID slots).get a = _ at found
  rw [FMap.get_filterMap] at found
  obtain ⟨all, -, kept⟩ := Option.bind_eq_some_iff.1 found
  unfold Chain.withoutHolder at kept
  dsimp only at kept
  split at kept
  · cases kept
  · rename_i some_left
    cases kept
    exact some_left

theorem packed_clearAllMetadata (c : Chain) (txID : TxID) :
    Packed (c.clearAllMetadata txID).slotLocks :=
  packed_unlockAllSlotsForTx
    (((c.clearLockLocked txID).clearPendingCredit txID).clearPendingCall txID) txID

theorem Packed.cleanupAfterExecution (packed : Packed c.slotLocks) (tx : Transaction) :
    Packed (c.cleanupAfterExecution tx).slotLocks := by
  unfold Chain.cleanupAfterExecution
  dsimp only
  split
  · exact packed
  · split
    · rw [Chain.clearLockLocked_eq]
      exact packed
    · unfold Chain.clearPendingCreditForAddressLocked
      split <;> exact packed
    · exact packed
    · exact packed_clearAllMetadata c _
    · exact packed
    · exact packed_unlockAllSlotsForTx c _
    · exact packed_clearAllMetadata _ _
    · exact packed

theorem Packed.executeLock (packed : Packed c.slotLocks) (evm : EVMState) {tx : Transaction}
    (kind : tx.txType = .lock) : Packed (c.executeLock evm tx).1.slotLocks := by
  have failed : ∀ c : Chain, Packed (c.cleanupAfterFailure tx).slotLocks := by
    intro c
    simp only [Chain.cleanupAfterFailure, kind]
    exact packed_clearAllMetadata c _
  unfold Chain.executeLock
  cases reserves : c.reserveFunds evm tx with
  | none => exact failed c
  | some c₁ =>
      obtain ⟨rfl, -⟩ := Chain.reserveFunds_eq_some reserves
      have reserved : Packed (c.reserved tx).slotLocks := by
        rw [Chain.reserved_eq]
        exact packed
      have items := reserved.lockReadItems evm tx.crossShardTxID [] (Chain.readItems tx.rwSet)
      dsimp only [Chain.validateAndLockReadSet]
      cases pass : Chain.lockReadItems evm tx.crossShardTxID (c.reserved tx) []
          (Chain.readItems tx.rwSet) with
      | mk c₂ result =>
          rw [pass] at items
          cases result with
          | some err => exact failed _
          | none =>
              refine Packed.cleanupAfterExecution ?_ tx
              exact items

end Packed

/-! ## One turn of the loop -/

/-- The tables of `c` come from the `Lock`s of `locks`, one for each ID. -/
structure Bound (locks : List Transaction) (c : Chain) : Prop where
  tied : ∀ x, c.TiedFor x
  packed : Packed c.slotLocks
  known : ∀ x rwSet, c.pendingRwSets.get x = some rwSet →
    ∃ tx ∈ locks, tx.crossShardTxID = x ∧ tx.rwSet = rwSet

section Turn

variable {c c' : Chain} {x : TxID}

theorem Chain.TiedFor.of_view (tied : c.TiedFor x) (same : c'.view x = c.view x) : c'.TiedFor x := by
  intro a s
  have rwSet : c'.pendingRwSets.get x = c.pendingRwSets.get x := congrArg Chain.TxView.rwSet same
  rw [Chain.slots_of_view same, rwSet]
  exact tied a s

theorem Chain.TiedFor.of_none (slots : ∀ a s, c.slotHolder a s ≠ some x)
    (rwSet : c.pendingRwSets.get x = none) : c.TiedFor x := by
  intro a s
  rw [rwSet]
  refine iff_of_false (slots a s) ?_
  rintro ⟨_, found, -⟩
  cases found

theorem Chain.Forgotten.tied (forgotten : c.Forgotten x) : c.TiedFor x :=
  .of_none forgotten.slots forgotten.pendingRwSets

/-- A clean-up drops both the slots and the pending set of its transaction, or neither. -/
theorem Chain.TiedFor.cleanupAfterExecution {tx : Transaction} (tied : c.TiedFor tx.crossShardTxID) :
    (c.cleanupAfterExecution tx).TiedFor tx.crossShardTxID := by
  unfold Chain.cleanupAfterExecution
  dsimp only
  split
  · exact tied
  · split
    · intro a s
      rw [Chain.clearLockLocked_eq]
      exact tied a s
    · unfold Chain.clearPendingCreditForAddressLocked
      split <;> exact tied
    · exact tied
    · exact (Chain.forgotten_clearAllMetadata c _).tied
    · exact tied
    · refine .of_none (fun a s => ?_) ?_
      · show (c.unlockAllSlotsForTx tx.crossShardTxID).slotHolder a s ≠ _
        rw [Chain.slotHolder_unlockAllSlotsForTx]
        split
        · nofun
        · assumption
      · simp [Chain.clearPendingRwSet]
    · exact (Chain.forgotten_clearAllMetadata _ _).tied
    · exact tied

/-- A granted `Lock` holds the slots of its own set, also if it held them before. -/
theorem Chain.Granted.tied {evm : EVMState} {tx : Transaction} (lock : Chain.Granted c evm tx c')
    (tied : c.TiedFor tx.crossShardTxID)
    (own : ∀ rwSet, c.pendingRwSets.get tx.crossShardTxID = some rwSet → rwSet = tx.rwSet) :
    c'.TiedFor tx.crossShardTxID := by
  intro a s
  have pending : c'.pendingRwSets.get tx.crossShardTxID = some tx.rwSet := by
    rw [lock.chain]
    simp
  have reads : Chain.ReadsSlot tx a s ↔ ReadsFrom tx.rwSet a s := readsSlot_iff
  rw [pending]
  by_cases inside : Chain.ReadsSlot tx a s
  · exact iff_of_true (lock.taken a s inside) ⟨_, rfl, reads.1 inside⟩
  · rw [lock.kept a s inside]
    refine iff_of_false (fun held => ?_) ?_
    · obtain ⟨rwSet, found, from_set⟩ := (tied a s).1 held
      rw [own rwSet found] at from_set
      exact inside (reads.2 from_set)
    · rintro ⟨_, same, from_set⟩
      cases same
      exact inside (reads.2 from_set)

/-- A step that is about `x` alone keeps the tables bound if it leaves those of `x` so. -/
theorem Bound.of_own {locks : List Transaction} (bound : Bound locks c) (x : TxID)
    (others : ∀ y, y ≠ x → c'.view y = c.view y) (tied : c'.TiedFor x)
    (packed : Packed c'.slotLocks)
    (known : ∀ rwSet, c'.pendingRwSets.get x = some rwSet →
      ∃ tx ∈ locks, tx.crossShardTxID = x ∧ tx.rwSet = rwSet) : Bound locks c' := by
  refine ⟨fun y => ?_, packed, fun y rwSet found => ?_⟩
  · by_cases same : y = x
    · subst same
      exact tied
    · exact (bound.tied y).of_view (others y same)
  · by_cases same : y = x
    · subst same
      exact known rwSet found
    · have unchanged : c'.pendingRwSets.get y = c.pendingRwSets.get y :=
        congrArg Chain.TxView.rwSet (others y same)
      rw [unchanged] at found
      exact bound.known y rwSet found

/-- **One turn of the loop keeps the tables bound.** -/
theorem Bound.executeOne {vm : VM} {s s' : BlockState} {tx : Transaction}
    {locks : List Transaction} (bound : Bound locks s.chain)
    (distinct : (locks.map Transaction.crossShardTxID).Nodup)
    (listed : tx.txType = .lock → tx ∈ locks) (ran : s.executeOne vm tx = some s') :
    Bound locks s'.chain := by
  have locked : tx.txType = .lock → Packed (s.chain.executeLock s.evm tx).1.slotLocks :=
    bound.packed.executeLock s.evm
  cases executed_of_executeOne ran with
  | skipped reason => exact bound
  | granted kind chain lock result =>
      rw [result] at locked
      have own : ∀ rwSet, s.chain.pendingRwSets.get tx.crossShardTxID = some rwSet →
          rwSet = tx.rwSet := by
        intro rwSet found
        obtain ⟨t, known, same, rfl⟩ := bound.known _ rwSet found
        rw [List.inj_on_of_nodup_map distinct known (listed kind) same]
      refine bound.of_own tx.crossShardTxID (fun y different => lock.view_of_ne different)
        (lock.tied (bound.tied _) own) (locked kind) fun rwSet found => ?_
      rw [lock.chain] at found
      simp only [FMap.get_set, if_true, Option.some.injEq] at found
      exact ⟨tx, listed kind, rfl, found⟩
  | refused kind chain lock result =>
      rw [result] at locked
      refine bound.of_own tx.crossShardTxID lock.others lock.forgotten.tied (locked kind)
        fun rwSet found => ?_
      rw [lock.forgotten.pendingRwSets] at found
      cases found
  | applied kind free evm ok =>
      refine bound.of_own tx.crossShardTxID
        (fun y different => Chain.view_cleanupAfterExecution_of_ne different)
        (bound.tied _).cleanupAfterExecution (bound.packed.cleanupAfterExecution tx)
        fun rwSet found => bound.known _ rwSet ?_
      exact (s.chain.below_cleanupAfterExecution tx).pendingRwSets _ rwSet found

theorem Bound.executeAll {vm : VM} {locks txs : List Transaction} {s s' : BlockState}
    (bound : Bound locks s.chain) (distinct : (locks.map Transaction.crossShardTxID).Nodup)
    (listed : ∀ tx ∈ txs, tx.txType = .lock → tx ∈ locks)
    (ran : BlockState.executeAll vm s txs = some s') : Bound locks s'.chain := by
  rw [executeAll_eq_run] at ran
  exact run_preserves (fun t => Bound locks t.chain)
    (fun _ _ _ bound listed turn => bound.executeOne distinct listed turn) bound listed ran

end Turn

/-! ## Reachable states -/

/-- The two operations of a chain that nobody else drives. -/
inductive ChainStep where
  | addTx (tx : Transaction)
  | produceBlock (vm : VM) (evm : EVMState) (commit : Option Hash)

def ChainStep.perform (c : Chain) : ChainStep → Option Chain
  | addTx tx => some (c.addTx tx)
  | produceBlock vm evm commit => (c.produceBlock vm evm commit).map Produced.chain

/-- The `Lock`s that a run adds. -/
def locksAdded (steps : List ChainStep) : List Transaction :=
  steps.filterMap fun
    | .addTx tx => if tx.txType = .lock then some tx else none
    | .produceBlock _ _ _ => none

/-- The queue, and the tables it leads to. -/
structure Backed (locks : List Transaction) (c : Chain) : Prop where
  bound : Bound locks c
  queue : ∀ tx ∈ c.currentTxs, tx.txType = .lock → tx ∈ locks

theorem backed_newChain (shardID : Int) (locks : List Transaction) :
    Backed locks (Chain.newChain shardID) where
  bound := ⟨fun _ => .of_none (fun _ _ => nofun) rfl, fun _ _ => nofun, fun _ _ => nofun⟩
  queue := List.forall_mem_nil _

theorem Bound.of_tables {locks : List Transaction} {c c' : Chain} (bound : Bound locks c)
    (slots : c'.slotLocks = c.slotLocks) (sets : c'.pendingRwSets = c.pendingRwSets) :
    Bound locks c' where
  tied x a s := by
    unfold Chain.slotHolder
    rw [slots, sets]
    exact bound.tied x a s
  packed := by
    rw [slots]
    exact bound.packed
  known := by
    rw [sets]
    exact bound.known

theorem Backed.perform {locks : List Transaction} {c c' : Chain} {step : ChainStep}
    (backed : Backed locks c) (distinct : (locks.map Transaction.crossShardTxID).Nodup)
    (listed : ∀ tx ∈ locksAdded [step], tx ∈ locks) (performed : step.perform c = some c') :
    Backed locks c' := by
  cases step with
  | addTx tx =>
      cases performed
      refine ⟨backed.bound.of_tables rfl rfl, fun tx' member kind => ?_⟩
      rcases List.mem_append.1 member with old | new
      · exact backed.queue tx' old kind
      · rw [List.mem_singleton.1 new] at kind ⊢
        exact listed tx (by simp [locksAdded, kind])
  | produceBlock vm evm commit =>
      obtain ⟨p, produced, rfl⟩ := Option.map_eq_some_iff.1 performed
      rw [produceBlock_eq] at produced
      obtain ⟨s, ran, rfl⟩ := Option.map_eq_some_iff.1 produced
      have sorted : ∀ tx ∈ Chain.sortTransactionsByPriority c.currentTxs, tx.txType = .lock →
          tx ∈ locks := fun tx member => backed.queue tx ((byKey_perm _ _).mem_iff.1 member)
      have bound : Bound locks s.chain :=
        Bound.executeAll (s := ⟨c, evm, []⟩) backed.bound distinct sorted ran
      cases commit with
      | none =>
          refine ⟨bound, ?_⟩
          have waiting : s.chain.currentTxs = c.currentTxs :=
            congrArg Chain.Steady.currentTxs (steady_executeAll ran)
          show ∀ tx ∈ s.chain.currentTxs, _
          rw [waiting]
          exact backed.queue
      | some stateRoot => exact ⟨bound.of_tables rfl rfl, List.forall_mem_nil _⟩

theorem backed_run {locks : List Transaction}
    (distinct : (locks.map Transaction.crossShardTxID).Nodup) {steps : List ChainStep}
    {c c' : Chain} (backed : Backed locks c) (listed : ∀ tx ∈ locksAdded steps, tx ∈ locks)
    (ran : run ChainStep.perform c steps = some c') : Backed locks c' := by
  refine run_preserves (P := fun step => ∀ tx ∈ locksAdded [step], tx ∈ locks) (Backed locks)
    (fun _ _ _ backed listed performed => backed.perform distinct listed performed) backed ?_ ran
  intro step member tx added
  obtain ⟨step', this, found⟩ := List.mem_filterMap.1 added
  rw [List.mem_singleton.1 this] at found
  exact listed tx (List.mem_filterMap.2 ⟨step, member, found⟩)

/-- **Slot locks are pending reads.**  In every state that a new chain reaches by adding
transactions, with at most one `Lock` for each ID, and producing blocks, `x` holds a slot exactly
when its pending set reads it, and no address has an empty map of slots.  So an address is locked
exactly when some pending set reads a slot of it. -/
theorem slot_locks_are_pending_reads (shardID : Int) (steps : List ChainStep) (c : Chain)
    (distinct : ((locksAdded steps).map Transaction.crossShardTxID).Nodup)
    (ran : run ChainStep.perform (Chain.newChain shardID) steps = some c) :
    (∀ a s x, c.slotHolder a s = some x ↔
      ∃ rwSet, c.pendingRwSets.get x = some rwSet ∧ ReadsFrom rwSet a s) ∧
    (∀ a slots, c.slotLocks.get a = some slots → slots.len ≠ 0) ∧
    ∀ a, c.isAddressLocked a = true ↔
      ∃ x rwSet s, c.pendingRwSets.get x = some rwSet ∧ ReadsFrom rwSet a s := by
  have bound := (backed_run distinct (backed_newChain shardID _) (fun _ member => member) ran).bound
  refine ⟨fun a s x => bound.tied x a s, bound.packed, fun a => ?_⟩
  rw [Chain.isAddressLocked_iff]
  constructor
  · rintro ⟨s, held⟩
    obtain ⟨x, holder⟩ := Option.ne_none_iff_exists'.1 held
    obtain ⟨rwSet, pending, reads⟩ := (bound.tied x a s).1 holder
    exact ⟨x, rwSet, s, pending, reads⟩
  · rintro ⟨x, rwSet, s, pending, reads⟩
    refine ⟨s, ?_⟩
    rw [(bound.tied x a s).2 ⟨rwSet, pending, reads⟩]
    nofun

namespace SlotTablesPole

open LockOutcomePole

/-- Two `Lock`s on the same slot, in a block whose commit fails and in the next attempt. -/
def contended : List ChainStep :=
  [.addTx (lockOf "tx-1"), .addTx (lockOf "tx-2"), .produceBlock vm funded none,
    .produceBlock vm funded (some 1)]

end SlotTablesPole

open LockOutcomePole SlotTablesPole in
/-- The failed commit leaves the slot to the first `Lock`, which the second attempt executes again
and refuses because of it.  The refusal frees the slot, and the second `Lock` takes it. -/
theorem second_lock_takes_the_vault :
    ∃ c, run ChainStep.perform (Chain.newChain 0) contended = some c ∧
      c.slotHolder vault 7 = some "tx-2" ∧ c.pendingRwSets.get "tx-1" = none ∧
      c.isAddressLocked vault = true ∧
        ∃ rwSet, c.pendingRwSets.get "tx-2" = some rwSet ∧ ReadsFrom rwSet vault 7 := by
  obtain ⟨c, ran, held, dropped⟩ : ∃ c,
      run ChainStep.perform (Chain.newChain 0) contended = some c ∧
        c.slotHolder vault 7 = some "tx-2" ∧ c.pendingRwSets.get "tx-1" = none :=
    ⟨_, rfl, by decide +kernel, by decide +kernel⟩
  obtain ⟨holders, -, address⟩ := slot_locks_are_pending_reads 0 contended c (by decide) ran
  obtain ⟨rwSet, pending, reads⟩ := (holders vault 7 "tx-2").1 held
  have locked := (address vault).2 ⟨"tx-2", rwSet, 7, pending, reads⟩
  exact ⟨c, ran, held, dropped, locked, rwSet, pending, reads⟩

end CrossShard.Shard
