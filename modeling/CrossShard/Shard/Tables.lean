/-
# Shard.Tables -- what each chain operation does to the two-phase-commit tables

`Chain.view c txID` is everything the tables record on behalf of one transaction: its
fund lock and the entries of the per-address index, its pending credits, call and
read/write set, and the slots it holds.  Every operation on behalf of one transaction
leaves the view of every other transaction as it was (the `view_..._of_ne` lemmas), so an
argument about one transaction never looks at the operations of the others.
-/
import CrossShard.Shard.Server

namespace CrossShard.Shard

set_option autoImplicit false

open CrossShard.Library CrossShard.Protocol

namespace Chain

/-! ## Slot locks -/

/-- `c'` is `c` with another table of slot locks. -/
def SlotsOnly (c c' : Chain) : Prop := ∃ table, c' = { c with slotLocks := table }

theorem SlotsOnly.refl (c : Chain) : SlotsOnly c c := ⟨c.slotLocks, rfl⟩

theorem SlotsOnly.trans {c₁ c₂ c₃ : Chain} (first : SlotsOnly c₁ c₂) (second : SlotsOnly c₂ c₃) :
    SlotsOnly c₁ c₃ := by
  obtain ⟨table, rfl⟩ := first
  obtain ⟨table', rfl⟩ := second
  exact ⟨table', rfl⟩

theorem slotHolder_eq_some {c : Chain} {addr : Address} {slot : Hash} {txID : TxID} :
    c.slotHolder addr slot = some txID ↔
      ∃ slots, c.slotLocks.get addr = some slots ∧ slots.get slot = some txID :=
  Option.bind_eq_some_iff

theorem get_putSlots (table : FMap Address (FMap Hash TxID)) (addr : Address)
    (slots : FMap Hash TxID) (a : Address) (s : Hash) :
    ((putSlots table addr slots).get a).bind (fun slots => slots.get s) =
      if a = addr then slots.get s else (table.get a).bind fun slots => slots.get s := by
  unfold putSlots
  split
  · rename_i none_left
    by_cases same : a = addr
    · simp [same, FMap.len_eq_zero.1 none_left s]
    · simp [same]
  · by_cases same : a = addr <;> simp [same]

/-- `lockSlot` succeeds only on a slot no other transaction holds. -/
theorem lockSlot_ok {c c' : Chain} {txID : TxID} {addr : Address} {slot : Hash}
    (locked : c.lockSlot txID addr slot = .ok c') :
      (∀ holder, c.slotHolder addr slot = some holder → holder = txID) ∧
      SlotsOnly c c' ∧
      ∀ a s, c'.slotHolder a s =
        if a = addr ∧ s = slot then some txID else c.slotHolder a s := by
  have held : ((c.slotLocks.get addr).getD ∅).get slot = c.slotHolder addr slot := by
    unfold slotHolder
    cases c.slotLocks.get addr <;> simp
  unfold lockSlot at locked
  simp only [held] at locked
  cases holder : c.slotHolder addr slot with
  | some existing =>
      simp only [holder] at locked
      split at locked
      · cases locked
      · rename_i own
        cases locked
        simp only [ne_eq, not_not] at own
        subst own
        refine ⟨by simp, .refl c, fun a s => ?_⟩
        split
        · rename_i same
          rw [same.1, same.2, holder]
        · rfl
  | none =>
      simp only [holder] at locked
      cases locked
      refine ⟨by simp, ⟨_, rfl⟩, fun a s => ?_⟩
      unfold slotHolder
      by_cases same : a = addr
      · subst same
        by_cases same' : s = slot
        · simp [same']
        · cases c.slotLocks.get a <;> simp [same']
      · simp [same]

theorem lockSlot_error {c : Chain} {txID : TxID} {addr : Address} {slot : Hash}
    {err : LockError} (refused : c.lockSlot txID addr slot = .error err) :
    ∃ holder, c.slotHolder addr slot = some holder ∧ holder ≠ txID ∧
      err = .slotLock addr slot holder := by
  unfold lockSlot at refused
  cases slots : c.slotLocks.get addr with
  | none => simp [slots] at refused
  | some slots' =>
      simp only [slots, Option.getD_some] at refused
      split at refused
      · rename_i existing found
        split at refused
        · rename_i other
          cases refused
          exact ⟨existing, slotHolder_eq_some.2 ⟨slots', slots, found⟩, other, rfl⟩
        · cases refused
      · cases refused

theorem unlockSlot_slotsOnly (c : Chain) (txID : TxID) (addr : Address) (slot : Hash) :
    SlotsOnly c (c.unlockSlot txID addr slot) := by
  unfold unlockSlot
  split
  · exact .refl c
  · split
    · exact ⟨_, rfl⟩
    · exact .refl c

@[simp] theorem slotHolder_unlockSlot (c : Chain) (txID : TxID) (addr : Address) (slot : Hash)
    (a : Address) (s : Hash) :
    (c.unlockSlot txID addr slot).slotHolder a s =
      if a = addr ∧ s = slot ∧ c.slotHolder addr slot = some txID then none
      else c.slotHolder a s := by
  unfold unlockSlot
  split
  · rename_i absent
    simp [slotHolder, absent]
  · rename_i slots found
    have holder : c.slotHolder addr slot = slots.get slot := by simp [slotHolder, found]
    rw [holder]
    split
    · rename_i own
      show ((putSlots _ _ _).get a).bind _ = _
      rw [get_putSlots]
      by_cases same : a = addr
      · subst same
        by_cases same' : s = slot
        · subst same'
          cases inner : slots.get s with
          | none => simp [slotHolder, found, inner]
          | some holder =>
              simp only [inner, Option.getD_some] at own
              simp [own]
        · simp [slotHolder, found, same']
      · simp [slotHolder, same]
    · rename_i other
      rw [if_neg]
      rintro ⟨-, -, own⟩
      simp [own] at other

@[simp] theorem slotHolder_unlockAllSlotsForTx (c : Chain) (txID : TxID) (a : Address)
    (s : Hash) :
    (c.unlockAllSlotsForTx txID).slotHolder a s =
      if c.slotHolder a s = some txID then none else c.slotHolder a s := by
  unfold slotHolder unlockAllSlotsForTx
  simp only [FMap.get_filterMap]
  cases c.slotLocks.get a with
  | none => simp
  | some slots =>
      simp only [Option.bind_some, withoutHolder]
      split
      · rename_i none_kept
        have gone := FMap.len_eq_zero.1 none_kept s
        simp only [FMap.get_filterMap] at gone
        cases holder : slots.get s with
        | none => simp
        | some txID' =>
            simp only [holder, Option.bind_some, ite_eq_left_iff, reduceCtorEq, imp_false,
              not_not] at gone
            simp [gone]
      · cases holder : slots.get s with
        | none => simp [holder]
        | some txID' => simp [holder]

/-- An address is locked when some slot of it is held. -/
theorem isAddressLocked_iff {c : Chain} {addr : Address} :
    c.isAddressLocked addr = true ↔ ∃ slot, c.slotHolder addr slot ≠ none := by
  unfold isAddressLocked slotHolder
  rw [decide_eq_true_iff, Nat.pos_iff_ne_zero, ne_eq, FMap.len_eq_zero, not_forall]
  cases c.slotLocks.get addr <;> simp

/-! ## Validating and locking a read set -/

theorem rollback_slotsOnly (c : Chain) (txID : TxID) (lockedSlots : List SlotKey) :
    SlotsOnly c (c.rollback txID lockedSlots) := by
  induction lockedSlots generalizing c with
  | nil => exact .refl c
  | cons entry rest ih => exact (unlockSlot_slotsOnly ..).trans (ih _)

theorem slotHolder_rollback (c : Chain) (txID : TxID) (lockedSlots : List SlotKey)
    (a : Address) (s : Hash) :
    (c.rollback txID lockedSlots).slotHolder a s =
      if ⟨a, s⟩ ∈ lockedSlots ∧ c.slotHolder a s = some txID then none
      else c.slotHolder a s := by
  induction lockedSlots generalizing c with
  | nil => simp [rollback]
  | cons entry rest ih =>
      show ((c.unlockSlot txID entry.addr entry.slot).rollback txID rest).slotHolder a s = _
      rw [ih, slotHolder_unlockSlot]
      obtain ⟨addr, slot⟩ := entry
      by_cases first : a = addr ∧ s = slot
      · obtain ⟨rfl, rfl⟩ := first
        by_cases own : c.slotHolder a s = some txID <;> simp [own]
      · have other : (⟨a, s⟩ : SlotKey) ≠ ⟨addr, slot⟩ := by simpa using first
        have skip : ¬(a = addr ∧ s = slot ∧ c.slotHolder addr slot = some txID) :=
          fun h => first ⟨h.1, h.2.1⟩
        simp only [if_neg skip, List.mem_cons, other, false_or]

/-- A successful pass: every item had its recorded value and a slot no one else held, and
exactly the slots of the items are now held. -/
theorem lockReadItems_ok {evm : EVMState} {txID : TxID} {c c' : Chain}
    {lockedSlots : List SlotKey} {items : List (Address × ReadSetItem)}
    (passed : lockReadItems evm txID c lockedSlots items = (c', none)) :
    (∀ p ∈ items, evm.getStorageAt p.1 p.2.slot = bytesToHash p.2.value ∧
      ∀ holder, c.slotHolder p.1 p.2.slot = some holder → holder = txID) ∧
    SlotsOnly c c' ∧
    ∀ a s, c'.slotHolder a s =
      if ∃ p ∈ items, p.1 = a ∧ p.2.slot = s then some txID else c.slotHolder a s := by
  induction items generalizing c lockedSlots with
  | nil =>
      cases passed
      exact ⟨by simp, .refl _, by simp⟩
  | cons first rest ih =>
      obtain ⟨addr, item⟩ := first
      unfold lockReadItems at passed
      simp only at passed
      split at passed
      · cases passed
      · rename_i matched
        rw [ne_eq, not_not] at matched
        split at passed
        · cases passed
        · rename_i c₁ locked
          obtain ⟨free, only, holders⟩ := lockSlot_ok locked
          obtain ⟨others, only', holders'⟩ := ih passed
          refine ⟨?_, ?_, fun a s => ?_⟩
          · intro p member
            rcases List.mem_cons.1 member with rfl | member
            · exact ⟨matched, free⟩
            · refine ⟨(others p member).1, fun holder held => ?_⟩
              by_cases same : p.1 = addr ∧ p.2.slot = item.slot
              · rw [same.1, same.2] at held
                exact free holder held
              · exact (others p member).2 holder (by rw [holders, if_neg same, held])
          · exact only.trans only'
          · rw [holders', holders]
            by_cases later : ∃ p ∈ rest, p.1 = a ∧ p.2.slot = s
            · obtain ⟨p, member, found⟩ := later
              rw [if_pos ⟨p, member, found⟩, if_pos ⟨p, List.mem_cons_of_mem _ member, found⟩]
            · rw [if_neg later]
              refine if_congr ?_ rfl rfl
              constructor
              · rintro ⟨rfl, rfl⟩
                exact ⟨_, List.mem_cons_self, rfl, rfl⟩
              · rintro ⟨p, member, found⟩
                rcases List.mem_cons.1 member with rfl | member
                · exact ⟨found.1.symm, found.2.symm⟩
                · exact absurd ⟨p, member, found⟩ later

/-- A failed pass rolls back: no one else's slots change, and nothing new is held. -/
theorem lockReadItems_error {evm : EVMState} {txID : TxID} {c c' : Chain}
    {lockedSlots : List SlotKey} {items : List (Address × ReadSetItem)} {err : LockError}
    (failed : lockReadItems evm txID c lockedSlots items = (c', some err)) :
    SlotsOnly c c' ∧
    (∀ a s other, other ≠ txID →
      (c'.slotHolder a s = some other ↔ c.slotHolder a s = some other)) ∧
    ∀ a s, c'.slotHolder a s = some txID →
      c.slotHolder a s = some txID ∧ ⟨a, s⟩ ∉ lockedSlots := by
  -- both failing exits roll back from the state the pass has reached
  have exit : ∀ c : Chain, ∀ lockedSlots, SlotsOnly c (c.rollback txID lockedSlots) ∧
      (∀ a s other, other ≠ txID → ((c.rollback txID lockedSlots).slotHolder a s = some other ↔
        c.slotHolder a s = some other)) ∧
      ∀ a s, (c.rollback txID lockedSlots).slotHolder a s = some txID →
        c.slotHolder a s = some txID ∧ ⟨a, s⟩ ∉ lockedSlots := by
    intro c lockedSlots
    refine ⟨rollback_slotsOnly .., fun a s other different => ?_, fun a s held => ?_⟩
    · rw [slotHolder_rollback]
      split
      · rename_i own
        simp [own.2, different.symm]
      · rfl
    · rw [slotHolder_rollback] at held
      split at held
      · cases held
      · rename_i kept
        exact ⟨held, fun member => kept ⟨member, held⟩⟩
  induction items generalizing c lockedSlots with
  | nil => cases failed
  | cons first rest ih =>
      obtain ⟨addr, item⟩ := first
      unfold lockReadItems at failed
      simp only at failed
      split at failed
      · cases failed
        exact exit c lockedSlots
      · split at failed
        · cases failed
          exact exit c lockedSlots
        · rename_i c₁ locked
          obtain ⟨free, only, holders⟩ := lockSlot_ok locked
          obtain ⟨only', others, own⟩ := ih failed
          refine ⟨only.trans only', fun a s other different => ?_, fun a s held => ?_⟩
          · rw [others a s other different, holders]
            split
            · rename_i here
              obtain ⟨rfl, rfl⟩ := here
              constructor
              · intro same
                exact absurd (Option.some.inj same).symm different
              · intro held
                exact absurd (free other held) different
            · rfl
          · obtain ⟨held', fresh⟩ := own a s held
            have earlier : (⟨a, s⟩ : SlotKey) ∉ lockedSlots ∧ ¬(a = addr ∧ s = item.slot) := by
              simpa using fresh
            rw [holders, if_neg earlier.2] at held'
            exact ⟨held', earlier.1⟩

/-! ## The index of fund locks by address -/

theorem getD_putEntries (table : FMap Address (List LockedEntry)) (addr : Address)
    (entries : List LockedEntry) (a : Address) :
    ((putEntries table addr entries).get a).getD [] =
      if a = addr then entries else (table.get a).getD [] := by
  unfold putEntries
  split
  · rename_i none_left
    by_cases same : a = addr <;> simp [same, none_left]
  · by_cases same : a = addr <;> simp [same]

@[simp] theorem entriesAt_lockFunds (c : Chain) (txID : TxID) (addr : Address) (amount : Int)
    (a : Address) :
    (c.lockFunds txID addr amount).entriesAt a =
      if a = addr then c.entriesAt a ++ [⟨txID, amount⟩] else c.entriesAt a := by
  by_cases same : a = addr <;> simp [lockFunds, entriesAt, same]

theorem entriesAt_clearLockLocked (c : Chain) (txID : TxID) (a : Address) :
    (c.clearLockLocked txID).entriesAt a =
      if (c.locked.get txID).map LockedFunds.address = some a then
        (c.entriesAt a).eraseP fun entry => entry.txID = txID
      else c.entriesAt a := by
  unfold clearLockLocked
  split
  · rename_i absent
    simp [absent]
  · rename_i lock found
    show ((putEntries _ _ _).get a).getD [] = _
    rw [getD_putEntries, found, Option.map_some]
    by_cases same : a = lock.address
    · simp [same]
    · simp [same, Ne.symm same, entriesAt]

theorem clearLockLocked_eq (c : Chain) (txID : TxID) :
    c.clearLockLocked txID =
      { c with
        locked := (c.clearLockLocked txID).locked
        lockedByAddr := (c.clearLockLocked txID).lockedByAddr } := by
  unfold clearLockLocked
  split <;> rfl

@[simp] theorem get_locked_clearLockLocked (c : Chain) (txID x : TxID) :
    (c.clearLockLocked txID).locked.get x = if x = txID then none else c.locked.get x := by
  unfold clearLockLocked
  split
  · rename_i absent
    by_cases same : x = txID <;> simp [same, absent]
  · simp

theorem filter_eraseP_of_ne {txID x : TxID} (different : x ≠ txID) (l : List LockedEntry) :
    (l.eraseP fun entry => entry.txID = txID).filter (fun entry => entry.txID = x) =
      l.filter fun entry => entry.txID = x := by
  induction l with
  | nil => rfl
  | cons entry l ih =>
      by_cases own : entry.txID = txID
      · simp [own, Ne.symm different]
      · simp [own, List.filter_cons, ih]

theorem eraseP_txID_comm {x y : TxID} (different : x ≠ y) (entries : List LockedEntry) :
    (entries.eraseP fun entry => entry.txID = x).eraseP (fun entry => entry.txID = y) =
      (entries.eraseP fun entry => entry.txID = y).eraseP fun entry => entry.txID = x := by
  refine List.eraseP_comm fun entry _ => ?_
  simp only [decide_eq_true_eq]
  by_cases own : entry.txID = x
  · exact Or.inr fun other => different (own.symm.trans other)
  · exact Or.inl own

/-! ## The view of one transaction -/

/-- What the tables record on behalf of one cross-shard transaction. -/
@[ext] structure TxView where
  funds : Option LockedFunds
  entries : Address → List LockedEntry
  credits : Option (List PendingCredit)
  call : Option CrossShardTx
  rwSet : Option (List RwVariable)
  slots : Set SlotKey

def view (c : Chain) (txID : TxID) : TxView where
  funds := c.locked.get txID
  entries := fun addr => (c.entriesAt addr).filter fun entry => entry.txID = txID
  credits := c.pendingCredits.get txID
  call := c.pendingCalls.get txID
  rwSet := c.pendingRwSets.get txID
  slots := {key | c.slotHolder key.addr key.slot = some txID}

/-- The slots an ID holds, from its view. -/
theorem slots_of_view {c c' : Chain} {x : TxID} (same : c'.view x = c.view x) (a : Address)
    (s : Hash) : c'.slotHolder a s = some x ↔ c.slotHolder a s = some x :=
  iff_of_eq (congrArg (fun v => (⟨a, s⟩ : SlotKey) ∈ v.slots) same)

section Frame

variable {c : Chain} {txID x : TxID} (different : x ≠ txID)
include different

theorem view_lockFunds_of_ne (addr : Address) (amount : Int) :
    (c.lockFunds txID addr amount).view x = c.view x := by
  ext1 <;> try rfl
  · simp [view, lockFunds, different]
  · funext a
    by_cases same : a = addr <;> simp [view, same, Ne.symm different]

theorem view_clearLockLocked_of_ne : (c.clearLockLocked txID).view x = c.view x := by
  ext1
  · simp [view, different]
  · funext a
    simp only [view, entriesAt_clearLockLocked]
    split
    · exact filter_eraseP_of_ne different _
    · rfl
  all_goals rw [clearLockLocked_eq]; rfl

theorem view_storePendingCredit_of_ne (addr : Address) (amount : Int) :
    (c.storePendingCredit txID addr amount).view x = c.view x := by
  simp [view, storePendingCredit, entriesAt, slotHolder, different]

theorem view_clearPendingCredit_of_ne : (c.clearPendingCredit txID).view x = c.view x := by
  simp [view, clearPendingCredit, entriesAt, slotHolder, different]

theorem view_clearPendingCreditForAddressLocked_of_ne (addr : Address) :
    (c.clearPendingCreditForAddressLocked txID addr).view x = c.view x := by
  unfold clearPendingCreditForAddressLocked
  split
  · rfl
  · dsimp only
    split <;> simp [view, entriesAt, slotHolder, different]

theorem view_clearPendingCall_of_ne : (c.clearPendingCall txID).view x = c.view x := by
  simp [view, clearPendingCall, entriesAt, slotHolder, different]

theorem view_clearPendingRwSet_of_ne : (c.clearPendingRwSet txID).view x = c.view x := by
  simp [view, clearPendingRwSet, entriesAt, slotHolder, different]

theorem view_unlockAllSlotsForTx_of_ne : (c.unlockAllSlotsForTx txID).view x = c.view x := by
  ext1 <;> try rfl
  ext key
  simp only [view, slotHolder_unlockAllSlotsForTx, Set.mem_ofPred_eq]
  split
  · rename_i own
    simp [own, Ne.symm different]
  · rfl

end Frame

/-- A change of the slot table alone is invisible to `x` when it holds the same slots. -/
theorem SlotsOnly.view_eq {c c' : Chain} {x : TxID} (only : SlotsOnly c c')
    (same : ∀ a s, c'.slotHolder a s = some x ↔ c.slotHolder a s = some x) :
    c'.view x = c.view x := by
  obtain ⟨table, rfl⟩ := only
  ext1 <;> try rfl
  ext key
  exact same key.addr key.slot

/-! ## The steady part -/

/-- The fields that executing a transaction never changes: only a committed block, a
submission or an orchestrator block does. -/
structure Steady where
  shardID : Int
  blocks : List StateShardBlock
  height : Nat
  currentTxs : List Transaction
  prepareTxs : List Transaction
  lastOrchestratorHeight : Nat
  processedCommits : FMap TxID Bool

def steady (c : Chain) : Steady :=
  ⟨c.shardID, c.blocks, c.height, c.currentTxs, c.prepareTxs, c.lastOrchestratorHeight,
    c.processedCommits⟩

theorem SlotsOnly.steady_eq {c c' : Chain} (only : SlotsOnly c c') : c'.steady = c.steady := by
  obtain ⟨table, rfl⟩ := only
  rfl

@[simp] theorem steady_clearLockLocked (c : Chain) (txID : TxID) :
    (c.clearLockLocked txID).steady = c.steady := by
  rw [clearLockLocked_eq]
  rfl

@[simp] theorem steady_clearPendingCreditForAddressLocked (c : Chain) (txID : TxID)
    (addr : Address) :
    (c.clearPendingCreditForAddressLocked txID addr).steady = c.steady := by
  unfold clearPendingCreditForAddressLocked
  split <;> rfl

@[simp] theorem steady_clearAllMetadata (c : Chain) (txID : TxID) :
    (c.clearAllMetadata txID).steady = c.steady := by
  rw [← steady_clearLockLocked c txID]
  unfold clearAllMetadata
  generalize c.clearLockLocked txID = cleared
  rfl

theorem steady_cleanupAfterExecution (c : Chain) (tx : Transaction) :
    (c.cleanupAfterExecution tx).steady = c.steady := by
  unfold cleanupAfterExecution
  dsimp only
  split
  · rfl
  · split
    · exact steady_clearLockLocked _ _
    · exact steady_clearPendingCreditForAddressLocked _ _ _
    · rfl
    · exact steady_clearAllMetadata _ _
    · rfl
    · rfl
    · exact steady_clearAllMetadata _ _
    · rfl

theorem steady_cleanupAfterFailure (c : Chain) (tx : Transaction) :
    (c.cleanupAfterFailure tx).steady = c.steady := by
  unfold cleanupAfterFailure
  split
  · exact steady_clearAllMetadata _ _
  · rfl

/-! ## Cleanup -/

theorem view_clearAllMetadata_of_ne {c : Chain} {txID x : TxID} (different : x ≠ txID) :
    (c.clearAllMetadata txID).view x = c.view x := by
  unfold clearAllMetadata
  rw [view_clearPendingRwSet_of_ne different, view_unlockAllSlotsForTx_of_ne different,
    view_clearPendingCall_of_ne different, view_clearPendingCredit_of_ne different,
    view_clearLockLocked_of_ne different]

theorem view_cleanupAfterExecution_of_ne {c : Chain} {tx : Transaction} {x : TxID}
    (different : x ≠ tx.crossShardTxID) : (c.cleanupAfterExecution tx).view x = c.view x := by
  unfold cleanupAfterExecution
  dsimp only
  split
  · rfl
  · split
    · exact view_clearLockLocked_of_ne different
    · exact view_clearPendingCreditForAddressLocked_of_ne different _
    · exact view_clearPendingCall_of_ne different
    · exact view_clearAllMetadata_of_ne different
    · rfl
    · rw [view_clearPendingRwSet_of_ne different, view_unlockAllSlotsForTx_of_ne different]
    · rw [view_clearAllMetadata_of_ne different, view_clearPendingRwSet_of_ne different,
        view_unlockAllSlotsForTx_of_ne different]
    · rfl

theorem view_cleanupAfterFailure_of_ne {c : Chain} {tx : Transaction} {x : TxID}
    (different : x ≠ tx.crossShardTxID) : (c.cleanupAfterFailure tx).view x = c.view x := by
  unfold cleanupAfterFailure
  split
  · exact view_clearAllMetadata_of_ne different
  · rfl

/-- Only a `Lock` votes. -/
theorem prepares_cleanupAfterExecution (c : Chain) {tx : Transaction} (kind : tx.txType ≠ .lock) :
    (c.cleanupAfterExecution tx).prepares = c.prepares := by
  have metadata : ∀ (c : Chain) txID, (c.clearAllMetadata txID).prepares = c.prepares := by
    intro c txID
    have cleared : (c.clearLockLocked txID).prepares = c.prepares := by rw [clearLockLocked_eq]
    rw [← cleared]
    unfold clearAllMetadata
    generalize c.clearLockLocked txID = cleared
    rfl
  unfold cleanupAfterExecution
  dsimp only
  split
  · rfl
  · split
    · rw [clearLockLocked_eq]
    · unfold clearPendingCreditForAddressLocked
      split <;> rfl
    · rfl
    · exact metadata _ _
    · rename_i lock
      exact absurd lock kind
    · rfl
    · exact metadata _ _
    · rfl

/-- Nothing is recorded on behalf of the transaction. -/
structure Forgotten (c : Chain) (txID : TxID) : Prop where
  slots : ∀ addr slot, c.slotHolder addr slot ≠ some txID
  locked : c.locked.get txID = none
  pendingCredits : c.pendingCredits.get txID = none
  pendingCalls : c.pendingCalls.get txID = none
  pendingRwSets : c.pendingRwSets.get txID = none

theorem forgotten_of_view {c c' : Chain} {txID : TxID} (same : c'.view txID = c.view txID)
    (forgotten : c.Forgotten txID) : c'.Forgotten txID where
  slots addr slot held := by
    have key : (⟨addr, slot⟩ : SlotKey) ∈ (c'.view txID).slots := held
    rw [same] at key
    exact forgotten.slots addr slot key
  locked := (congrArg TxView.funds same).trans forgotten.locked
  pendingCredits := (congrArg TxView.credits same).trans forgotten.pendingCredits
  pendingCalls := (congrArg TxView.call same).trans forgotten.pendingCalls
  pendingRwSets := (congrArg TxView.rwSet same).trans forgotten.pendingRwSets

theorem forgotten_clearAllMetadata (c : Chain) (txID : TxID) :
    (c.clearAllMetadata txID).Forgotten txID where
  slots addr slot := by
    unfold clearAllMetadata
    generalize ((c.clearLockLocked txID).clearPendingCredit txID).clearPendingCall txID = cleared
    show (cleared.unlockAllSlotsForTx txID).slotHolder addr slot ≠ some txID
    rw [slotHolder_unlockAllSlotsForTx]
    split
    · exact nofun
    · assumption
  locked := by simp [clearAllMetadata, clearPendingCredit, clearPendingCall,
    unlockAllSlotsForTx, clearPendingRwSet]
  pendingCredits := by simp [clearAllMetadata, clearPendingCredit, clearPendingCall,
    unlockAllSlotsForTx, clearPendingRwSet]
  pendingCalls := by simp [clearAllMetadata, clearPendingCall, unlockAllSlotsForTx,
    clearPendingRwSet]
  pendingRwSets := by simp [clearAllMetadata, clearPendingRwSet]

/-- The tables of `c'` hold nothing that those of `c` do not: executing anything but a
successful `Lock` only removes records. -/
structure Below (c' c : Chain) : Prop where
  slots : ∀ a s txID, c'.slotHolder a s = some txID → c.slotHolder a s = some txID
  locked : ∀ txID lock, c'.locked.get txID = some lock → c.locked.get txID = some lock
  pendingCredits : ∀ txID credits, c'.pendingCredits.get txID = some credits →
    c'.pendingCredits.get txID = c.pendingCredits.get txID ∨
      credits ≠ [] ∧ ∃ all, c.pendingCredits.get txID = some all ∧ credits.Sublist all
  pendingCalls : ∀ txID call, c'.pendingCalls.get txID = some call →
    c.pendingCalls.get txID = some call
  pendingRwSets : ∀ txID rwSet, c'.pendingRwSets.get txID = some rwSet →
    c.pendingRwSets.get txID = some rwSet

/-- One transaction is forgotten and the others are untouched. -/
theorem below_of_forgotten {c c' : Chain} {txID : TxID} (forgotten : c'.Forgotten txID)
    (others : ∀ x, x ≠ txID → c'.view x = c.view x) : Below c' c where
  slots a s x held := by
    have different : x ≠ txID := by
      rintro rfl
      exact forgotten.slots a s held
    have key : (⟨a, s⟩ : SlotKey) ∈ (c'.view x).slots := held
    rw [others x different] at key
    exact key
  locked x lock found := by
    have different : x ≠ txID := by
      rintro rfl
      simp [forgotten.locked] at found
    exact (congrArg TxView.funds (others x different)).symm.trans found
  pendingCredits x credits found := by
    have different : x ≠ txID := by
      rintro rfl
      simp [forgotten.pendingCredits] at found
    exact Or.inl (congrArg TxView.credits (others x different))
  pendingCalls x call found := by
    have different : x ≠ txID := by
      rintro rfl
      simp [forgotten.pendingCalls] at found
    exact (congrArg TxView.call (others x different)).symm.trans found
  pendingRwSets x rwSet found := by
    have different : x ≠ txID := by
      rintro rfl
      simp [forgotten.pendingRwSets] at found
    exact (congrArg TxView.rwSet (others x different)).symm.trans found

theorem below_of_view {c c' : Chain} (same : ∀ x, c'.view x = c.view x) : Below c' c where
  slots a s x held := by
    have key : (⟨a, s⟩ : SlotKey) ∈ (c'.view x).slots := held
    rw [same x] at key
    exact key
  locked x _ found := (congrArg TxView.funds (same x)).symm.trans found
  pendingCredits x _ _ := Or.inl (congrArg TxView.credits (same x))
  pendingCalls x _ found := (congrArg TxView.call (same x)).symm.trans found
  pendingRwSets x _ found := (congrArg TxView.rwSet (same x)).symm.trans found

theorem below_clearLockLocked (c : Chain) (txID : TxID) : Below (c.clearLockLocked txID) c where
  slots a s x held := by
    rw [clearLockLocked_eq] at held
    exact held
  locked x lock found := by
    rw [get_locked_clearLockLocked] at found
    split at found
    · cases found
    · exact found
  pendingCredits x credits _ := Or.inl (by rw [clearLockLocked_eq])
  pendingCalls x call found := by
    rw [clearLockLocked_eq] at found
    exact found
  pendingRwSets x rwSet found := by
    rw [clearLockLocked_eq] at found
    exact found

theorem below_clearPendingCreditForAddressLocked (c : Chain) (txID : TxID) (addr : Address) :
    Below (c.clearPendingCreditForAddressLocked txID addr) c := by
  unfold clearPendingCreditForAddressLocked
  split
  · exact below_of_view fun _ => rfl
  · rename_i all found
    refine ⟨fun _ _ _ h => h, fun _ _ h => h, fun x credits left => ?_, fun _ _ h => h,
      fun _ _ h => h⟩
    dsimp only at left ⊢
    by_cases same : x = txID
    · subst same
      split at left
      · simp at left
      · rename_i some_left
        simp only [FMap.get_set, if_true, Option.some.injEq] at left
        subst left
        exact Or.inr ⟨some_left, all, found, List.filter_sublist⟩
    · left
      split <;> simp [same]

theorem below_clearPendingCall (c : Chain) (txID : TxID) : Below (c.clearPendingCall txID) c :=
  ⟨fun _ _ _ h => h, fun _ _ h => h, fun _ _ _ => Or.inl rfl,
    fun x call found => by
      simp only [clearPendingCall, FMap.get_delete] at found
      split at found
      · cases found
      · exact found,
    fun _ _ h => h⟩

theorem below_finalized (c : Chain) (txID : TxID) :
    Below ((c.unlockAllSlotsForTx txID).clearPendingRwSet txID) c where
  slots a s x held := by
    change (c.unlockAllSlotsForTx txID).slotHolder a s = some x at held
    rw [slotHolder_unlockAllSlotsForTx] at held
    split at held
    · cases held
    · exact held
  locked _ _ found := found
  pendingCredits _ _ _ := Or.inl rfl
  pendingCalls _ _ found := found
  pendingRwSets x rwSet found := by
    simp only [clearPendingRwSet, unlockAllSlotsForTx, FMap.get_delete] at found
    split at found
    · cases found
    · exact found

/-- **Executing a transaction other than a `Lock` only removes records.** -/
theorem below_cleanupAfterExecution (c : Chain) (tx : Transaction) :
    Below (c.cleanupAfterExecution tx) c := by
  unfold cleanupAfterExecution
  dsimp only
  split
  · exact below_of_view fun _ => rfl
  · split
    · exact below_clearLockLocked c _
    · exact below_clearPendingCreditForAddressLocked c _ _
    · exact below_clearPendingCall c _
    · exact below_of_forgotten (forgotten_clearAllMetadata c _)
        fun x different => view_clearAllMetadata_of_ne different
    · exact below_of_view fun _ => rfl
    · exact below_finalized c _
    · refine below_of_forgotten (forgotten_clearAllMetadata _ _) fun x different => ?_
      rw [view_clearAllMetadata_of_ne different, view_clearPendingRwSet_of_ne different,
        view_unlockAllSlotsForTx_of_ne different]
    · exact below_of_view fun _ => rfl

/-! ## The `Lock` branch -/

/-- The chain after step 1 of a `Lock` that has its funds. -/
def reserved (c : Chain) (tx : Transaction) : Chain :=
  if 0 < toBigInt tx.value then
    c.lockFunds tx.crossShardTxID tx.fromAddr (toBigInt tx.value)
  else c

theorem reserveFunds_eq_some {c c₁ : Chain} {evm : EVMState} {tx : Transaction}
    (reserves : c.reserveFunds evm tx = some c₁) :
    c₁ = c.reserved tx ∧
      (0 < toBigInt tx.value → evm.canDebit tx.fromAddr (toBigInt tx.value)
        (c.getLockedAmountForAddress tx.fromAddr) = true) := by
  unfold reserveFunds at reserves
  simp only at reserves
  unfold reserved
  split at reserves
  · rename_i positive
    split at reserves
    · rename_i covered
      cases reserves
      exact ⟨by rw [if_pos positive], fun _ => covered⟩
    · cases reserves
  · rename_i free
    cases reserves
    exact ⟨by rw [if_neg free], fun positive => absurd positive free⟩

theorem reserved_eq (c : Chain) (tx : Transaction) :
    c.reserved tx =
      { c with
        locked := (c.reserved tx).locked
        lockedByAddr := (c.reserved tx).lockedByAddr } := by
  unfold reserved
  split <;> rfl

theorem view_reserved_of_ne {c : Chain} {tx : Transaction} {x : TxID}
    (different : x ≠ tx.crossShardTxID) : (c.reserved tx).view x = c.view x := by
  unfold reserved
  split
  · exact view_lockFunds_of_ne different _ _
  · rfl

/-- The read items of `tx` that name a slot. -/
def ReadsSlot (tx : Transaction) (a : Address) (s : Hash) : Prop :=
  ∃ p ∈ readItems tx.rwSet, p.1 = a ∧ p.2.slot = s

/-- What a `Lock` that enters the block has checked and recorded. -/
structure Granted (c : Chain) (evm : EVMState) (tx : Transaction) (c' : Chain) : Prop where
  covered : 0 < toBigInt tx.value → evm.canDebit tx.fromAddr (toBigInt tx.value)
    (c.getLockedAmountForAddress tx.fromAddr) = true
  matched : ∀ p ∈ readItems tx.rwSet, evm.getStorageAt p.1 p.2.slot = bytesToHash p.2.value
  free : ∀ a s, ReadsSlot tx a s → ∀ holder, c.slotHolder a s = some holder →
    holder = tx.crossShardTxID
  taken : ∀ a s, ReadsSlot tx a s → c'.slotHolder a s = some tx.crossShardTxID
  kept : ∀ a s, ¬ReadsSlot tx a s → c'.slotHolder a s = c.slotHolder a s
  chain : c' = { c.reserved tx with
    slotLocks := c'.slotLocks
    pendingRwSets := c.pendingRwSets.set tx.crossShardTxID tx.rwSet
    prepares := if tx.crossShardTxID = "" then c.prepares
      else c.prepares.set tx.crossShardTxID true }

theorem Granted.steady {c c' : Chain} {evm : EVMState} {tx : Transaction}
    (lock : Granted c evm tx c') : c'.steady = c.steady := by
  rw [lock.chain, reserved_eq]
  rfl

theorem Granted.view_of_ne {c c' : Chain} {evm : EVMState} {tx : Transaction} {x : TxID}
    (lock : Granted c evm tx c') (different : x ≠ tx.crossShardTxID) : c'.view x = c.view x := by
  have slots : (c'.view x).slots = (c.view x).slots := by
    ext key
    show c'.slotHolder key.addr key.slot = some x ↔ c.slotHolder key.addr key.slot = some x
    by_cases reads : ReadsSlot tx key.addr key.slot
    · rw [lock.taken _ _ reads]
      constructor
      · intro same
        exact absurd (Option.some.inj same).symm different
      · intro held
        exact absurd (lock.free _ _ reads x held) different
    · rw [lock.kept _ _ reads]
  have rwSet : c'.pendingRwSets.get x = c.pendingRwSets.get x := by
    rw [lock.chain]
    simp [different]
  have funds := view_reserved_of_ne (c := c) different
  ext1
  · rw [lock.chain]
    exact (congrArg TxView.funds funds :)
  · rw [lock.chain]
    exact (congrArg TxView.entries funds :)
  · rw [lock.chain]
    exact (congrArg TxView.credits funds :)
  · rw [lock.chain]
    exact (congrArg TxView.call funds :)
  · exact rwSet
  · exact slots

/-- What a `Lock` that stays out of the block leaves behind. -/
structure Refused (c : Chain) (tx : Transaction) (c' : Chain) : Prop where
  forgotten : c'.Forgotten tx.crossShardTxID
  others : ∀ x, x ≠ tx.crossShardTxID → c'.view x = c.view x
  vote : c'.prepares = c.prepares.set tx.crossShardTxID false
  steady : c'.steady = c.steady

theorem cleanupAfterFailure_refused {c c' : Chain} {tx : Transaction} (kind : tx.txType = .lock)
    (others : ∀ x, x ≠ tx.crossShardTxID → c'.view x = c.view x)
    (votes : c'.prepares = c.prepares) (steady : c'.steady = c.steady) :
    Refused c tx (c'.cleanupAfterFailure tx) := by
  have shape : c'.cleanupAfterFailure tx =
      (c'.clearAllMetadata tx.crossShardTxID).recordVote tx.crossShardTxID false := by
    simp [cleanupAfterFailure, kind]
  refine ⟨?_, fun x different => ?_, ?_, ?_⟩
  · rw [shape]
    exact forgotten_of_view (c := c'.clearAllMetadata tx.crossShardTxID) rfl
      (forgotten_clearAllMetadata c' tx.crossShardTxID)
  · rw [view_cleanupAfterFailure_of_ne different, others x different]
  · rw [shape, ← votes]
    show ((c'.clearLockLocked tx.crossShardTxID).prepares).set _ _ = _
    rw [clearLockLocked_eq]
  · rw [steady_cleanupAfterFailure, steady]

/-- **The two outcomes of a `Lock`.** -/
theorem executeLock_cases (c : Chain) (evm : EVMState) {tx : Transaction}
    (kind : tx.txType = .lock) :
    (∃ c', c.executeLock evm tx = (c', true) ∧ Granted c evm tx c') ∨
      (∃ c', c.executeLock evm tx = (c', false) ∧ Refused c tx c') := by
  unfold executeLock
  cases reserves : c.reserveFunds evm tx with
  | none =>
      exact Or.inr ⟨_, rfl, cleanupAfterFailure_refused kind (fun _ _ => rfl) rfl rfl⟩
  | some c₁ =>
      obtain ⟨rfl, covered⟩ := reserveFunds_eq_some reserves
      unfold validateAndLockReadSet
      cases pass : lockReadItems evm tx.crossShardTxID (c.reserved tx) [] (readItems tx.rwSet) with
      | mk c₂ result =>
          simp only [pass]
          have holders : (c.reserved tx).slotHolder = c.slotHolder := by
            rw [reserved_eq]
            rfl
          cases result with
          | some err =>
              obtain ⟨only, others, -⟩ := lockReadItems_error pass
              refine Or.inr ⟨_, rfl, cleanupAfterFailure_refused kind (fun x different => ?_) ?_ ?_⟩
              · rw [view_clearLockLocked_of_ne different,
                  only.view_eq fun a s => others a s x different, view_reserved_of_ne different]
              · obtain ⟨table, rfl⟩ := only
                rw [clearLockLocked_eq, reserved_eq]
              · rw [steady_clearLockLocked, only.steady_eq, reserved_eq]
                rfl
          | none =>
              obtain ⟨checked, only, holders'⟩ := lockReadItems_ok pass
              have same : ∀ c : Chain, (c.cleanupAfterExecution tx).slotHolder = c.slotHolder := by
                intro c
                simp only [cleanupAfterExecution, kind]
                split <;> rfl
              refine Or.inl ⟨_, rfl, covered, fun p member => (checked p member).1, ?_, ?_, ?_, ?_⟩
              · rintro a s ⟨p, member, rfl, rfl⟩
                rw [← holders]
                exact (checked p member).2
              · intro a s reads
                rw [same]
                exact (holders' a s).trans (if_pos reads)
              · intro a s reads
                rw [same, ← holders]
                exact (holders' a s).trans (if_neg reads)
              · obtain ⟨table, rfl⟩ := only
                simp only [cleanupAfterExecution, kind, recordVote]
                rw [reserved_eq]
                split <;> rfl

/-! ## Processing one item of an orchestrator block -/

theorem processResult_of_processed {c : Chain} {txID : TxID}
    (processed : c.isCommitProcessed txID = true) (committed : Bool) :
    c.processResult ⟨txID, committed⟩ = c := by
  simp [processResult, checkAndMarkCommitProcessed, processed]

theorem processResult_of_fresh {c : Chain} {txID : TxID}
    (fresh : c.isCommitProcessed txID = false) (committed : Bool) :
    c.processResult ⟨txID, committed⟩ =
      { c with
        processedCommits := c.processedCommits.set txID true
        currentTxs := c.currentTxs ++ c.decisionTxs txID committed } := by
  simp only [processResult, checkAndMarkCommitProcessed, fresh]
  rfl

/-- What an involved shard notes about `tx` besides its `Lock`. -/
def noteOrder (c : Chain) (tx : CrossShardTx) : Chain :=
  if tx.fromShard ≠ c.shardID ∧ tx.data ≠ [] then (c.noteCredit tx).storePendingCall tx
  else c.noteCredit tx

theorem processOrder_of_involved {c : Chain} {tx : CrossShardTx}
    (involved : c.shardID ∈ tx.involvedShards) :
    c.processOrder tx = (c.noteOrder tx).addTx (lockTx c.shardID tx) := by
  unfold processOrder noteOrder
  split
  · rename_i source
    simp [source]
  · rename_i target
    have entries : tx.localRwSet c.shardID ≠ [] := by
      rw [CrossShardTx.localRwSet_ne_nil]
      exact (CrossShardTx.mem_involvedShards.1 involved).resolve_left (Ne.symm target)
    rw [if_pos entries]
    by_cases call : tx.data = [] <;> simp [call, target]

theorem processOrder_of_foreign {c : Chain} {tx : CrossShardTx}
    (foreign : c.shardID ∉ tx.involvedShards) : c.processOrder tx = c := by
  rw [CrossShardTx.mem_involvedShards, not_or, ← CrossShardTx.localRwSet_ne_nil] at foreign
  simp [processOrder, Ne.symm foreign.1, not_not.1 foreign.2]

theorem noteCredit_eq (c : Chain) (tx : CrossShardTx) :
    c.noteCredit tx = { c with pendingCredits := (c.noteCredit tx).pendingCredits } := by
  unfold noteCredit
  split <;> rfl

theorem noteOrder_eq (c : Chain) (tx : CrossShardTx) :
    c.noteOrder tx =
      { c with
        pendingCredits := (c.noteOrder tx).pendingCredits
        pendingCalls := (c.noteOrder tx).pendingCalls } := by
  unfold noteOrder
  rw [noteCredit_eq]
  split <;> rfl

theorem steady_noteOrder (c : Chain) (tx : CrossShardTx) :
    (c.noteOrder tx).steady = c.steady := by
  rw [noteOrder_eq]
  rfl

theorem view_noteOrder_of_ne {c : Chain} {tx : CrossShardTx} {x : TxID} (different : x ≠ tx.id) :
    (c.noteOrder tx).view x = c.view x := by
  have credit : (c.noteCredit tx).view x = c.view x := by
    unfold noteCredit
    split
    · exact view_storePendingCredit_of_ne different _ _
    · rfl
  unfold noteOrder
  split
  · rw [← credit]
    simp [view, storePendingCall, entriesAt, slotHolder, different]
  · exact credit

/-- The credit one order adds to those already pending for its transaction. -/
theorem get_pendingCredits_noteOrder (c : Chain) (tx : CrossShardTx) :
    (c.noteOrder tx).pendingCredits.get tx.id =
      if 0 < toBigInt tx.value ∧ shardOf tx.toAddr = c.shardID then
        some ((c.pendingCredits.get tx.id).getD [] ++ [⟨tx.toAddr, toBigInt tx.value⟩])
      else c.pendingCredits.get tx.id := by
  have credits : (c.noteOrder tx).pendingCredits = (c.noteCredit tx).pendingCredits := by
    unfold noteOrder
    split <;> rfl
  rw [credits]
  unfold noteCredit
  split <;> simp [storePendingCredit]

theorem get_pendingCalls_noteOrder (c : Chain) (tx : CrossShardTx) :
    (c.noteOrder tx).pendingCalls.get tx.id =
      if tx.fromShard ≠ c.shardID ∧ tx.data ≠ [] then some tx else c.pendingCalls.get tx.id := by
  unfold noteOrder
  split
  · simp [storePendingCall]
  · rw [noteCredit_eq]

end Chain

end CrossShard.Shard
