/-
# Shard.Frame -- an operation for one transaction leaves the others alone

Seven tables are shared by all cross-shard transactions of a shard, and most operations
search, filter or roll back a shared list.  `Operation` is every operation on behalf of one
transaction: the exported methods of `Chain`, and one turn of the loop of `ProduceBlock`.

* `swapRemove_perm`: the removal of `ClearLock` drops the entry that `clearLockLocked` drops,
  and moves the last one into its place.
* `perform_unaffected`: what the tables record for any other transaction stays, up to the order
  of its entries in a per-address list.
-/
import CrossShard.Shard.Machine

namespace CrossShard.Shard

set_option autoImplicit false

open CrossShard.Library CrossShard.Protocol

/-! ## Operations on behalf of one transaction -/

inductive Operation where
  | lockFunds (txID : TxID) (addr : Address) (amount : Int)
  | clearLock (txID : TxID)
  | storePendingCredit (txID : TxID) (addr : Address) (amount : Int)
  | clearPendingCredit (txID : TxID)
  | storePendingCall (call : CrossShardTx)
  | clearPendingCall (txID : TxID)
  | lockSlot (txID : TxID) (addr : Address) (slot : Hash)
  | unlockSlot (txID : TxID) (addr : Address) (slot : Hash)
  | unlockAllSlotsForTx (txID : TxID)
  | validateAndLockReadSet (txID : TxID) (rwSet : List RwVariable) (evm : EVMState)
  | clearPendingRwSet (txID : TxID)
  | execute (vm : VM) (evm : EVMState) (tx : Transaction)

namespace Operation

/-- The transaction on whose behalf the operation acts. -/
def txID : Operation → TxID
  | lockFunds txID _ _ => txID
  | clearLock txID => txID
  | storePendingCredit txID _ _ => txID
  | clearPendingCredit txID => txID
  | storePendingCall call => call.id
  | clearPendingCall txID => txID
  | lockSlot txID _ _ => txID
  | unlockSlot txID _ _ => txID
  | unlockAllSlotsForTx txID => txID
  | validateAndLockReadSet txID _ _ => txID
  | clearPendingRwSet txID => txID
  | execute _ _ tx => tx.crossShardTxID

/-- The chain after the operation; `none` when an executed transaction panics. -/
def perform (c : Chain) : Operation → Option Chain
  | lockFunds txID addr amount => some (c.lockFunds txID addr amount)
  | clearLock txID => some (c.clearLock txID)
  | storePendingCredit txID addr amount => some (c.storePendingCredit txID addr amount)
  | clearPendingCredit txID => some (c.clearPendingCredit txID)
  | storePendingCall call => some (c.storePendingCall call)
  | clearPendingCall txID => some (c.clearPendingCall txID)
  | lockSlot txID addr slot =>
      match c.lockSlot txID addr slot with
      | .ok c' => some c'
      | .error _ => some c
  | unlockSlot txID addr slot => some (c.unlockSlot txID addr slot)
  | unlockAllSlotsForTx txID => some (c.unlockAllSlotsForTx txID)
  | validateAndLockReadSet txID rwSet evm => some (c.validateAndLockReadSet txID rwSet evm).1
  | clearPendingRwSet txID => some (c.clearPendingRwSet txID)
  | execute vm evm tx => (BlockState.executeOne vm ⟨c, evm, []⟩ tx).map BlockState.chain

end Operation

/-- Nothing that the tables record for `y` differs in `c'`, up to the order of its entries in a
per-address list. -/
structure Unaffected (y : TxID) (c c' : Chain) : Prop where
  slots : ∀ a s, c'.slotHolder a s = some y ↔ c.slotHolder a s = some y
  funds : c'.locked.get y = c.locked.get y
  entries : ∀ a, ((c'.entriesAt a).filter fun entry => entry.txID = y).Perm
    ((c.entriesAt a).filter fun entry => entry.txID = y)
  credits : c'.pendingCredits.get y = c.pendingCredits.get y
  call : c'.pendingCalls.get y = c.pendingCalls.get y
  rwSet : c'.pendingRwSets.get y = c.pendingRwSets.get y

theorem unaffected_of_view {y : TxID} {c c' : Chain} (same : c'.view y = c.view y) :
    Unaffected y c c' where
  slots := Chain.slots_of_view same
  funds := congrArg Chain.TxView.funds same
  entries a := .of_eq (congrFun (congrArg Chain.TxView.entries same) a)
  credits := congrArg Chain.TxView.credits same
  call := congrArg Chain.TxView.call same
  rwSet := congrArg Chain.TxView.rwSet same

/-! ## The two removals -/

namespace Chain

/-- Swapping with the last entry and truncating removes the entry. -/
theorem set_dropLast_perm {α : Type} {l : List α} {i : Nat} (inside : i < l.length) {last : α}
    (ends : l.getLast? = some last) : ((l.set i last).dropLast).Perm (l.eraseIdx i) := by
  obtain ⟨init, rfl⟩ : ∃ init, l = init ++ [last] := by
    refine ⟨l.dropLast, ?_⟩
    rw [List.dropLast_append_getLast? last ends]
  rw [List.length_append, List.length_singleton] at inside
  by_cases early : i < init.length
  · rw [List.set_append_left _ _ early, List.dropLast_concat, List.eraseIdx_append_of_lt_length early]
    exact (List.set_perm_cons_eraseIdx early last).trans (List.perm_append_singleton _ _).symm
  · have final : i = init.length := by omega
    subst final
    rw [List.eraseIdx_append_of_length_le (Nat.le_refl _)]
    simp

theorem swapRemove_perm (txID : TxID) (entries : List LockedEntry) :
    (swapRemove txID entries).Perm (entries.eraseP fun entry => entry.txID = txID) := by
  unfold swapRemove
  split
  · rename_i i last found ends
    rw [List.eraseP_eq_eraseIdx, found]
    exact set_dropLast_perm (List.findIdx?_eq_some_iff_findIdx_eq.1 found).1 ends
  · rename_i missing
    cases found : entries.findIdx? fun entry => entry.txID = txID with
    | none => rw [List.eraseP_eq_eraseIdx, found]
    | some i =>
        cases ends : entries.getLast? with
        | none => rw [List.getLast?_eq_none_iff.1 ends, List.eraseP_nil]
        | some last => exact absurd ends (missing i last found)

theorem entriesAt_clearLock_perm (c : Chain) (txID : TxID) (a : Address) :
    ((c.clearLock txID).entriesAt a).Perm ((c.clearLockLocked txID).entriesAt a) := by
  unfold clearLock clearLockLocked
  split
  · exact .refl _
  · rename_i lock _
    show (((putEntries _ _ _).get a).getD []).Perm (((putEntries _ _ _).get a).getD [])
    rw [getD_putEntries, getD_putEntries]
    split
    · exact swapRemove_perm txID _
    · exact .refl _

theorem clearLock_eq (c : Chain) (txID : TxID) :
    c.clearLock txID = { c.clearLockLocked txID with
      lockedByAddr := (c.clearLock txID).lockedByAddr } := by
  unfold clearLock clearLockLocked
  split <;> rfl

theorem unaffected_clearLock (c : Chain) {txID y : TxID} (different : y ≠ txID) :
    Unaffected y c (c.clearLock txID) := by
  have locked := unaffected_of_view (view_clearLockLocked_of_ne (c := c) different)
  refine ⟨?_, ?_, fun a => ?_, ?_, ?_, ?_⟩
  · rw [clearLock_eq]
    exact locked.slots
  · rw [clearLock_eq]
    exact locked.funds
  · exact ((entriesAt_clearLock_perm c txID a).filter _).trans (locked.entries a)
  · rw [clearLock_eq]
    exact locked.credits
  · rw [clearLock_eq]
    exact locked.call
  · rw [clearLock_eq]
    exact locked.rwSet

/-! ## Slots -/

theorem view_lockSlot_of_ne {c c' : Chain} {txID y : TxID} {addr : Address} {slot : Hash}
    (locked : c.lockSlot txID addr slot = .ok c') (different : y ≠ txID) :
    c'.view y = c.view y := by
  obtain ⟨free, only, holders⟩ := lockSlot_ok locked
  refine only.view_eq fun a s => ?_
  rw [holders]
  split
  · rename_i here
    obtain ⟨rfl, rfl⟩ := here
    constructor
    · intro same
      exact absurd (Option.some.inj same).symm different
    · intro held
      exact absurd (free y held) different
  · rfl

theorem view_unlockSlot_of_ne (c : Chain) {txID y : TxID} (addr : Address) (slot : Hash)
    (different : y ≠ txID) : (c.unlockSlot txID addr slot).view y = c.view y := by
  refine (unlockSlot_slotsOnly c txID addr slot).view_eq fun a s => ?_
  rw [slotHolder_unlockSlot]
  split
  · rename_i here
    rw [here.1, here.2.1, here.2.2]
    constructor
    · intro same
      cases same
    · intro same
      exact absurd (Option.some.inj same).symm different
  · rfl

theorem view_validateAndLockReadSet_of_ne (c : Chain) {txID y : TxID} (rwSet : List RwVariable)
    (evm : EVMState) (different : y ≠ txID) :
    (c.validateAndLockReadSet txID rwSet evm).1.view y = c.view y := by
  unfold validateAndLockReadSet
  cases pass : lockReadItems evm txID c [] (readItems rwSet) with
  | mk c' result =>
      cases result with
      | some err =>
          obtain ⟨only, others, -⟩ := lockReadItems_error pass
          exact only.view_eq fun a s => others a s y different
      | none =>
          obtain ⟨checked, only, holders⟩ := lockReadItems_ok pass
          have slots : c'.view y = c.view y := by
            refine only.view_eq fun a s => ?_
            rw [holders]
            split
            · rename_i reads
              obtain ⟨p, member, rfl, rfl⟩ := reads
              constructor
              · intro same
                exact absurd (Option.some.inj same).symm different
              · intro held
                exact absurd ((checked p member).2 y held) different
            · rfl
          have pending : ({ c' with pendingRwSets := c'.pendingRwSets.set txID rwSet }).view y =
              c'.view y := by
            ext1 <;> try rfl
            simp [view, different]
          exact pending.trans slots

/-! ## One turn of the loop of `ProduceBlock` -/

theorem view_executeOne_of_ne {vm : VM} {s s' : BlockState} {tx : Transaction} {y : TxID}
    (ran : s.executeOne vm tx = some s') (different : y ≠ tx.crossShardTxID) :
    s'.chain.view y = s.chain.view y := by
  cases executed_of_executeOne ran with
  | skipped reason => rfl
  | granted kind chain lock result => exact lock.view_of_ne different
  | refused kind chain lock result => exact lock.others y different
  | applied kind free evm ok => exact view_cleanupAfterExecution_of_ne different

end Chain

/-- **Transactions do not touch each other's records.**  Whatever a shard does on behalf of one
transaction, what it records for any other one stays. -/
theorem perform_unaffected (c c' : Chain) (op : Operation) (y : TxID)
    (performed : op.perform c = some c') (different : y ≠ op.txID) : Unaffected y c c' := by
  cases op with
  | lockFunds txID addr amount =>
      cases performed
      exact unaffected_of_view (Chain.view_lockFunds_of_ne different addr amount)
  | clearLock txID =>
      cases performed
      exact Chain.unaffected_clearLock c different
  | storePendingCredit txID addr amount =>
      cases performed
      exact unaffected_of_view (Chain.view_storePendingCredit_of_ne different addr amount)
  | clearPendingCredit txID =>
      cases performed
      exact unaffected_of_view (Chain.view_clearPendingCredit_of_ne different)
  | storePendingCall call =>
      cases performed
      refine unaffected_of_view ?_
      have other : y ≠ call.id := different
      simp [Chain.view, Chain.storePendingCall, Chain.entriesAt, Chain.slotHolder, other]
  | clearPendingCall txID =>
      cases performed
      exact unaffected_of_view (Chain.view_clearPendingCall_of_ne different)
  | lockSlot txID addr slot =>
      simp only [Operation.perform] at performed
      split at performed
      · rename_i c₁ locked
        cases performed
        exact unaffected_of_view (Chain.view_lockSlot_of_ne locked different)
      · cases performed
        exact unaffected_of_view rfl
  | unlockSlot txID addr slot =>
      cases performed
      exact unaffected_of_view (c.view_unlockSlot_of_ne addr slot different)
  | unlockAllSlotsForTx txID =>
      cases performed
      exact unaffected_of_view (Chain.view_unlockAllSlotsForTx_of_ne different)
  | validateAndLockReadSet txID rwSet evm =>
      cases performed
      exact unaffected_of_view (c.view_validateAndLockReadSet_of_ne rwSet evm different)
  | clearPendingRwSet txID =>
      cases performed
      exact unaffected_of_view (Chain.view_clearPendingRwSet_of_ne different)
  | execute vm evm tx =>
      obtain ⟨s, ran, rfl⟩ := Option.map_eq_some_iff.1 performed
      exact unaffected_of_view (Chain.view_executeOne_of_ne ran different)

namespace FramePole

def alice : Address := 0x100

/-- Three reservations at one address, two of them for `y`. -/
def reserved : Chain :=
  (((Chain.newChain 0).lockFunds "x" alice 5).lockFunds "y" alice 7).lockFunds "y" alice 9

end FramePole

open FramePole in
/-- Clearing `x` swaps the entries of `y`, and drops none of them. -/
theorem clearing_swaps_entries :
    ∃ c', (Operation.clearLock "x").perform reserved = some c' ∧ Unaffected "y" reserved c' ∧
      c'.entriesAt alice = [⟨"y", 9⟩, ⟨"y", 7⟩] := by
  refine ⟨reserved.clearLock "x", rfl, ?_, by decide +kernel⟩
  exact perform_unaffected reserved _ (.clearLock "x") "y" rfl (by decide)

end CrossShard.Shard
