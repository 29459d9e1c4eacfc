/-
# Shard.Chain -- the block chain of one shard and its two-phase-commit tables

`internal/shard/chain.go`.  `Chain` is the source's struct; each method is a function
of it, under the source's name.  Methods that take the mutex and their `...Locked`
versions compute the same thing, so one definition stands for both unless the source
has two algorithms (`ClearLock` swaps with the last entry, `clearLockLocked` shifts).

`executeOne` is the body of the loop of `ProduceBlock`, `executeAll` the loop and
`produceBlock` the whole method.  The method can stop in three ways: a panic of the
executed transaction (`none`), a failed `EVMState.Commit`, which returns an error and
keeps everything the loop did, and a block.
-/
import CrossShard.Library.Priority
import CrossShard.Shard.Evm

namespace CrossShard.Shard

set_option autoImplicit false

open CrossShard.Library CrossShard.Protocol

structure LockedFunds where
  address : Address
  amount : Int
  deriving DecidableEq

structure LockedEntry where
  txID : TxID
  amount : Int
  deriving DecidableEq

structure PendingCredit where
  address : Address
  amount : Int
  deriving DecidableEq

structure SlotKey where
  addr : Address
  slot : Hash
  deriving DecidableEq

/-- Why a `Lock` transaction was refused its slots. -/
inductive LockError where
  | slotLock (address : Address) (slot : Hash) (lockedBy : TxID)
  | readSetMismatch (address : Address) (slot : Hash) (expected : Bytes) (actual : Hash)
  deriving DecidableEq

/-- Which end of a local transaction has locked slots. -/
inductive LockConflict where
  | fromAddress (address : Address)
  | toAddress (address : Address)
  deriving DecidableEq

structure Chain where
  shardID : Int
  blocks : List StateShardBlock
  height : Nat
  currentTxs : List Transaction
  prepareTxs : List Transaction
  prepares : FMap TxID Bool
  locked : FMap TxID LockedFunds
  lockedByAddr : FMap Address (List LockedEntry)
  pendingCredits : FMap TxID (List PendingCredit)
  pendingCalls : FMap TxID CrossShardTx
  slotLocks : FMap Address (FMap Hash TxID)
  pendingRwSets : FMap TxID (List RwVariable)
  lastOrchestratorHeight : Nat
  processedCommits : FMap TxID Bool

namespace Chain

/-- `NewChain`: a genesis block and empty tables. -/
def newChain (shardID : Int) : Chain where
  shardID := shardID
  blocks := [⟨shardID, 0, 0, [], [], ∅⟩]
  height := 0
  currentTxs := []
  prepareTxs := []
  prepares := ∅
  locked := ∅
  lockedByAddr := ∅
  pendingCredits := ∅
  pendingCalls := ∅
  slotLocks := ∅
  pendingRwSets := ∅
  lastOrchestratorHeight := 0
  processedCommits := ∅

def addTx (c : Chain) (tx : Transaction) : Chain :=
  { c with currentTxs := c.currentTxs ++ [tx] }

/-- `sort.SliceStable` by priority. -/
def sortTransactionsByPriority (txs : List Transaction) : List Transaction :=
  byKey (fun tx => tx.txType.priority) txs

/-! ## Fund locks -/

/-- `c.lockedByAddr[addr]`. -/
def entriesAt (c : Chain) (addr : Address) : List LockedEntry :=
  (c.lockedByAddr.get addr).getD []

def lockFunds (c : Chain) (txID : TxID) (addr : Address) (amount : Int) : Chain :=
  { c with
    locked := c.locked.set txID ⟨addr, amount⟩
    lockedByAddr := c.lockedByAddr.set addr (c.entriesAt addr ++ [⟨txID, amount⟩]) }

def getLockedFunds (c : Chain) (txID : TxID) : Option LockedFunds := c.locked.get txID

def getLockedAmountForAddress (c : Chain) (addr : Address) : Int :=
  (c.entriesAt addr).foldl (fun total entry => total + entry.amount) 0

/-- Store `entries` at `addr`, or drop the address when nothing is left. -/
def putEntries (table : FMap Address (List LockedEntry)) (addr : Address)
    (entries : List LockedEntry) : FMap Address (List LockedEntry) :=
  if entries = [] then table.delete addr else table.set addr entries

/-- Remove the first entry of `txID` by swapping with the last and truncating. -/
def swapRemove (txID : TxID) (entries : List LockedEntry) : List LockedEntry :=
  match entries.findIdx? (fun entry => entry.txID = txID), entries.getLast? with
  | some i, some last => (entries.set i last).dropLast
  | _, _ => entries

def clearLock (c : Chain) (txID : TxID) : Chain :=
  match c.locked.get txID with
  | none => c
  | some lock =>
      { c with
        lockedByAddr := putEntries c.lockedByAddr lock.address
          (swapRemove txID (c.entriesAt lock.address))
        locked := c.locked.delete txID }

def clearLockLocked (c : Chain) (txID : TxID) : Chain :=
  match c.locked.get txID with
  | none => c
  | some lock =>
      { c with
        lockedByAddr := putEntries c.lockedByAddr lock.address
          ((c.entriesAt lock.address).eraseP fun entry => entry.txID = txID)
        locked := c.locked.delete txID }

/-! ## Pending credits and calls -/

def storePendingCredit (c : Chain) (txID : TxID) (addr : Address) (amount : Int) : Chain :=
  let credits := (c.pendingCredits.get txID).getD [] ++ [⟨addr, amount⟩]
  { c with pendingCredits := c.pendingCredits.set txID credits }

def getPendingCredits (c : Chain) (txID : TxID) : Option (List PendingCredit) :=
  c.pendingCredits.get txID

def clearPendingCredit (c : Chain) (txID : TxID) : Chain :=
  { c with pendingCredits := c.pendingCredits.delete txID }

/-- Drop the credits of `txID` to one address, and the record when none is left. -/
def clearPendingCreditForAddressLocked (c : Chain) (txID : TxID) (addr : Address) : Chain :=
  match c.pendingCredits.get txID with
  | none => c
  | some credits =>
      let remaining := credits.filter fun credit => credit.address ≠ addr
      { c with
        pendingCredits :=
          if remaining = [] then c.pendingCredits.delete txID
          else c.pendingCredits.set txID remaining }

def storePendingCall (c : Chain) (tx : CrossShardTx) : Chain :=
  { c with pendingCalls := c.pendingCalls.set tx.id tx }

def getPendingCall (c : Chain) (txID : TxID) : Option CrossShardTx :=
  c.pendingCalls.get txID

def clearPendingCall (c : Chain) (txID : TxID) : Chain :=
  { c with pendingCalls := c.pendingCalls.delete txID }

/-! ## Slot locks and pending read/write sets -/

/-- `c.slotLocks[addr][slot]`, when present. -/
def slotHolder (c : Chain) (addr : Address) (slot : Hash) : Option TxID :=
  (c.slotLocks.get addr).bind fun slots => slots.get slot

def lockSlot (c : Chain) (txID : TxID) (addr : Address) (slot : Hash) :
    Except LockError Chain :=
  let slots := (c.slotLocks.get addr).getD ∅
  match slots.get slot with
  | some existing =>
      if existing ≠ txID then .error (.slotLock addr slot existing) else .ok c
  | none => .ok { c with slotLocks := c.slotLocks.set addr (slots.set slot txID) }

/-- Store `slots` at `addr`, or drop the address when none is left. -/
def putSlots (table : FMap Address (FMap Hash TxID)) (addr : Address) (slots : FMap Hash TxID) :
    FMap Address (FMap Hash TxID) :=
  if slots.len = 0 then table.delete addr else table.set addr slots

/-- A missing slot reads as the empty string, which the comparison does not tell apart
from a lock of the empty ID. -/
def unlockSlot (c : Chain) (txID : TxID) (addr : Address) (slot : Hash) : Chain :=
  match c.slotLocks.get addr with
  | none => c
  | some slots =>
      if (slots.get slot).getD "" = txID then
        { c with slotLocks := putSlots c.slotLocks addr (slots.delete slot) }
      else c

/-- The slots of one address that `txID` does not hold; `none` when that is all of them. -/
def withoutHolder (txID : TxID) (slots : FMap Hash TxID) : Option (FMap Hash TxID) :=
  let kept := slots.filterMap fun _ holder => if holder = txID then none else some holder
  if kept.len = 0 then none else some kept

def unlockAllSlotsForTx (c : Chain) (txID : TxID) : Chain :=
  { c with slotLocks := c.slotLocks.filterMap fun _ slots => withoutHolder txID slots }

def clearPendingRwSet (c : Chain) (txID : TxID) : Chain :=
  { c with pendingRwSets := c.pendingRwSets.delete txID }

def getPendingRwSet (c : Chain) (txID : TxID) : Option (List RwVariable) :=
  c.pendingRwSets.get txID

/-- The read items of a read/write set in the order of the two nested loops. -/
def readItems (rwSet : List RwVariable) : List (Address × ReadSetItem) :=
  rwSet.flatMap fun rw => rw.readSet.map fun item => (rw.address, item)

/-- Release the slots acquired so far. -/
def rollback (c : Chain) (txID : TxID) (lockedSlots : List SlotKey) : Chain :=
  lockedSlots.foldl (fun c entry => c.unlockSlot txID entry.addr entry.slot) c

/-- The loop of `validateAndLockReadSetLocked`; `lockedSlots` is what it acquired. -/
def lockReadItems (evm : EVMState) (txID : TxID) :
    Chain → List SlotKey → List (Address × ReadSetItem) → Chain × Option LockError
  | c, _, [] => (c, none)
  | c, lockedSlots, (addr, item) :: rest =>
      let currentValue := evm.getStorageAt addr item.slot
      if currentValue ≠ bytesToHash item.value then
        (c.rollback txID lockedSlots,
          some (.readSetMismatch addr item.slot item.value currentValue))
      else
        match c.lockSlot txID addr item.slot with
        | .error err => (c.rollback txID lockedSlots, some err)
        | .ok c' => lockReadItems evm txID c' (lockedSlots ++ [⟨addr, item.slot⟩]) rest

def validateAndLockReadSet (c : Chain) (txID : TxID) (rwSet : List RwVariable)
    (evm : EVMState) : Chain × Option LockError :=
  match lockReadItems evm txID c [] (readItems rwSet) with
  | (c', some err) => (c', some err)
  | (c', none) => ({ c' with pendingRwSets := c'.pendingRwSets.set txID rwSet }, none)

def isAddressLocked (c : Chain) (addr : Address) : Bool :=
  0 < ((c.slotLocks.get addr).getD ∅).len

/-- Only local transactions are checked, and only their two direct addresses. -/
def checkLocalTxLockConflict (c : Chain) (tx : Transaction) : Option LockConflict :=
  if tx.txType ≠ .localTx then none
  else if c.isAddressLocked tx.fromAddr then some (.fromAddress tx.fromAddr)
  else if c.isAddressLocked tx.toAddr then some (.toAddress tx.toAddr)
  else none

/-! ## Crash-recovery marks -/

def setLastOrchestratorHeight (c : Chain) (height : Nat) : Chain :=
  { c with lastOrchestratorHeight := height }

def isCommitProcessed (c : Chain) (txID : TxID) : Bool :=
  (c.processedCommits.get txID).getD false

/-- `CheckAndMarkCommitProcessed`: the mark, and whether it is new. -/
def checkAndMarkCommitProcessed (c : Chain) (txID : TxID) : Chain × Bool :=
  if c.isCommitProcessed txID then (c, false)
  else ({ c with processedCommits := c.processedCommits.set txID true }, true)

/-! ## Block production -/

def clearAllMetadata (c : Chain) (txID : TxID) : Chain :=
  ((((c.clearLockLocked txID).clearPendingCredit txID).clearPendingCall txID).unlockAllSlotsForTx
    txID).clearPendingRwSet txID

/-- `prepares[txID] = vote`. -/
def recordVote (c : Chain) (txID : TxID) (vote : Bool) : Chain :=
  { c with prepares := c.prepares.set txID vote }

def cleanupAfterExecution (c : Chain) (tx : Transaction) : Chain :=
  let id := tx.crossShardTxID
  if id = "" then c
  else
    match tx.txType with
    | .crossDebit => c.clearLockLocked id
    | .crossCredit => c.clearPendingCreditForAddressLocked id tx.toAddr
    | .crossWriteSet => c.clearPendingCall id
    | .crossAbort => c.clearAllMetadata id
    | .lock => c.recordVote id true
    | .finalize => (c.unlockAllSlotsForTx id).clearPendingRwSet id
    | .unlock => ((c.unlockAllSlotsForTx id).clearPendingRwSet id).clearAllMetadata id
    | _ => c

def cleanupAfterFailure (c : Chain) (tx : Transaction) : Chain :=
  match tx.txType with
  | .lock => (c.clearAllMetadata tx.crossShardTxID).recordVote tx.crossShardTxID false
  | _ => c

/-- Step 1 of a `Lock`: reserve the funds of a value transfer; `none` when the available
balance does not cover it. -/
def reserveFunds (c : Chain) (evm : EVMState) (tx : Transaction) : Option Chain :=
  let amount := toBigInt tx.value
  if 0 < amount then
    if evm.canDebit tx.fromAddr amount (c.getLockedAmountForAddress tx.fromAddr) then
      some (c.lockFunds tx.crossShardTxID tx.fromAddr amount)
    else none
  else some c

/-- The `Lock` branch of the loop, and whether the transaction enters the block. -/
def executeLock (c : Chain) (evm : EVMState) (tx : Transaction) : Chain × Bool :=
  match c.reserveFunds evm tx with
  | none => (c.cleanupAfterFailure tx, false)
  | some c₁ =>
      match c₁.validateAndLockReadSet tx.crossShardTxID tx.rwSet evm with
      | (c₂, some _) => ((c₂.clearLockLocked tx.crossShardTxID).cleanupAfterFailure tx, false)
      | (c₂, none) => (c₂.cleanupAfterExecution tx, true)

end Chain

/-- The block under construction. -/
structure BlockState where
  chain : Chain
  evm : EVMState
  successfulTxs : List Transaction

namespace BlockState

/-- One turn of the loop of `ProduceBlock`; `none` is a panic. -/
def executeOne (vm : VM) (s : BlockState) (tx : Transaction) : Option BlockState :=
  if (s.chain.checkLocalTxLockConflict tx).isSome then some s
  else if tx.txType = .lock then
    let (chain, included) := s.chain.executeLock s.evm tx
    some { s with
      chain := chain
      successfulTxs := if included then s.successfulTxs ++ [tx] else s.successfulTxs }
  else
    match s.evm.executeTx vm tx with
    | .panic => none
    | .error _ => some { s with chain := s.chain.cleanupAfterFailure tx }
    | .ok evm =>
        some ⟨s.chain.cleanupAfterExecution tx, evm, s.successfulTxs ++ [tx]⟩

def executeAll (vm : VM) : BlockState → List Transaction → Option BlockState
  | s, [] => some s
  | s, tx :: rest => (s.executeOne vm tx).bind fun s' => executeAll vm s' rest

/-- After a successful commit: append the block and clear the queue and the votes. -/
def finish (s : BlockState) (stateRoot : Hash) : StateShardBlock × Chain :=
  let c := s.chain
  let block : StateShardBlock :=
    ⟨c.shardID, c.height + 1, stateRoot, s.successfulTxs, c.prepareTxs, c.prepares⟩
  (block, { c with
    blocks := c.blocks ++ [block]
    height := c.height + 1
    currentTxs := []
    prepareTxs := []
    prepares := ∅ })

end BlockState

/-- What `ProduceBlock` leaves behind when it does not panic. -/
structure Produced where
  block : Option StateShardBlock
  chain : Chain
  evm : EVMState

/-- `ProduceBlock`.  `commit` is the outcome of `EVMState.Commit`: a state root, or
`none` for an error, after which the queue, the votes and every executed effect stay. -/
def Chain.produceBlock (vm : VM) (c : Chain) (evm : EVMState) (commit : Option Hash) :
    Option Produced :=
  let sortedTxs := Chain.sortTransactionsByPriority c.currentTxs
  (BlockState.executeAll vm ⟨c, evm, []⟩ sortedTxs).map fun s =>
    match commit with
    | none => ⟨none, s.chain, s.evm⟩
    | some stateRoot =>
        let (block, chain) := s.finish stateRoot
        ⟨some block, chain, s.evm⟩

end CrossShard.Shard
