/-
# Shard.Evm -- the state one shard executes transactions against

`internal/shard/evm.go`.  The wrapped `StateDB` is a total record of balances, storage
and code.  `evm.Call` belongs to the virtual machine library and is the one parameter
(`VM`); everything the repository computes around it is written out.

`uint256.MustFromBig` panics on amounts whose magnitude does not fit 256 bits, and a
panic in the block producer ends the process: `Outcome.panic` is that case.  Snapshot
and revert are the value semantics of `EVMState`: a failed execution returns no state.
-/
import CrossShard.Protocol.Types

namespace CrossShard.Shard

set_option autoImplicit false

open CrossShard.Protocol

abbrev U256 := BitVec 256

@[ext] structure EVMState where
  balance : Address → U256
  storage : Address → Hash → Hash
  code : Address → Bytes

/-- What executing one transaction returns. -/
inductive Outcome where
  | ok (state : EVMState)
  | error (msg : String)
  | panic

/-- The contract-call entry point of the virtual machine: caller, callee, input, gas and
value to a new state, or an error with the gas left. -/
structure VM where
  call : EVMState → Address → Address → Bytes → Nat → U256 → Except (String × Nat) EVMState

/-- `uint256.MustFromBig`; `none` is the panic.  Negative amounts wrap. -/
def mustFromBig (amount : Int) : Option U256 :=
  if amount.natAbs < 2 ^ 256 then some (BitVec.ofInt 256 amount) else none

def errInsufficientFunds : String := "insufficient funds"

namespace EVMState

def subBalance (e : EVMState) (addr : Address) (amount : U256) : EVMState :=
  { e with balance := Function.update e.balance addr (e.balance addr - amount) }

def addBalance (e : EVMState) (addr : Address) (amount : U256) : EVMState :=
  { e with balance := Function.update e.balance addr (e.balance addr + amount) }

def setStorageAt (e : EVMState) (addr : Address) (slot value : Hash) : EVMState :=
  let slots := Function.update (e.storage addr) slot value
  { e with storage := Function.update e.storage addr slots }

def getStorageAt (e : EVMState) (addr : Address) (slot : Hash) : Hash := e.storage addr slot

/-- The `CanTransfer` hook of `newEVM`. -/
def canTransfer (e : EVMState) (addr : Address) (amount : U256) : Bool :=
  amount ≤ e.balance addr

/-- The `Transfer` hook of `newEVM`. -/
def transfer (e : EVMState) (sender recipient : Address) (amount : U256) : EVMState :=
  (e.subBalance sender amount).addBalance recipient amount

/-- Available balance is the balance less what is reserved. -/
def canDebit (e : EVMState) (addr : Address) (amount lockedAmount : Int) : Bool :=
  amount ≤ ((e.balance addr).toNat : Int) - lockedAmount

def debit (e : EVMState) (addr : Address) (amount : Int) : Outcome :=
  match mustFromBig amount with
  | none => .panic
  | some amt =>
      if e.balance addr < amt then .error errInsufficientFunds
      else .ok (e.subBalance addr amt)

def credit (e : EVMState) (addr : Address) (amount : Int) : Outcome :=
  match mustFromBig amount with
  | none => .panic
  | some amt => .ok (e.addBalance addr amt)

/-- The write items of one entry, in order. -/
def applyWrites (addr : Address) (e : EVMState) (writes : List WriteSetItem) : EVMState :=
  writes.foldl (fun e w => e.setStorageAt addr w.slot (bytesToHash w.newValue)) e

def applyWriteSet (e : EVMState) (rwSet : List RwVariable) : EVMState :=
  rwSet.foldl (fun e rw => applyWrites rw.address e rw.writeSet) e

def executeLocalTx (vm : VM) (e : EVMState) (tx : Transaction) : Outcome :=
  match mustFromBig (toBigInt tx.value) with
  | none => .panic
  | some value =>
      let gas := if tx.gas = 0 then 3000000 else tx.gas
      if tx.data ≠ [] then
        match vm.call e tx.fromAddr tx.toAddr tx.data gas value with
        | .ok e' => .ok e'
        | .error (err, gasLeft) =>
            let used := gas - gasLeft
            .error s!"contract call failed (gas used: {used}): {err}"
      else if e.canTransfer tx.fromAddr value then .ok (e.transfer tx.fromAddr tx.toAddr value)
      else .error errInsufficientFunds

def executeTx (vm : VM) (e : EVMState) (tx : Transaction) : Outcome :=
  match tx.txType with
  | .localTx => e.executeLocalTx vm tx
  | .crossDebit => e.debit tx.fromAddr (toBigInt tx.value)
  | .crossCredit => e.credit tx.toAddr (toBigInt tx.value)
  | .crossWriteSet => .ok (e.applyWriteSet tx.rwSet)
  | .crossAbort => .ok e
  | .lock => .ok e
  | .unlock => .ok e
  | .finalize => .ok (e.applyWriteSet tx.rwSet)
  | .simError => .ok e
  | t =>
      let name := t.name
      .error s!"unknown transaction type: {name}"

/-! ## Reading after an update -/

@[simp] theorem balance_subBalance (e : EVMState) (addr a : Address) (amount : U256) :
    (e.subBalance addr amount).balance a =
      if a = addr then e.balance addr - amount else e.balance a := by
  simp [subBalance, Function.update_apply]

@[simp] theorem balance_addBalance (e : EVMState) (addr a : Address) (amount : U256) :
    (e.addBalance addr amount).balance a =
      if a = addr then e.balance addr + amount else e.balance a := by
  simp [addBalance, Function.update_apply]

@[simp] theorem storage_setStorageAt (e : EVMState) (addr a : Address) (slot value s : Hash) :
    (e.setStorageAt addr slot value).storage a s =
      if a = addr ∧ s = slot then value else e.storage a s := by
  by_cases same : a = addr
  · subst same
    simp [setStorageAt, Function.update_apply]
  · simp [setStorageAt, same]

/-- What a write set leaves in a slot: its last write there, if any. -/
def lastWrite (rwSet : List RwVariable) (a : Address) (s : Hash) : Option Hash :=
  rwSet.foldl (fun found rw => rw.writeSet.foldl (fun found w =>
    if a = rw.address ∧ s = w.slot then some (bytesToHash w.newValue) else found) found) none

theorem storage_applyWrites (addr : Address) (writes : List WriteSetItem) (e : EVMState)
    (a : Address) (s : Hash) (old : Hash) (found : Option Hash)
    (now : e.storage a s = found.getD old) :
    (applyWrites addr e writes).storage a s =
      (writes.foldl (fun found w =>
        if a = addr ∧ s = w.slot then some (bytesToHash w.newValue) else found) found).getD old := by
  induction writes generalizing e found with
  | nil => exact now
  | cons w writes ih =>
      refine ih (e.setStorageAt addr w.slot (bytesToHash w.newValue)) _ ?_
      dsimp only
      by_cases here : a = addr ∧ s = w.slot
      · rw [storage_setStorageAt, if_pos here, if_pos here, Option.getD_some]
      · rw [storage_setStorageAt, if_neg here, if_neg here, now]

/-- **Storage after a write set.** -/
theorem storage_applyWriteSet (e : EVMState) (rwSet : List RwVariable) (a : Address) (s : Hash) :
    (e.applyWriteSet rwSet).storage a s = (lastWrite rwSet a s).getD (e.storage a s) := by
  suffices general : ∀ (rwSet : List RwVariable) (e : EVMState) (old : Hash) (found : Option Hash),
      e.storage a s = found.getD old →
      (e.applyWriteSet rwSet).storage a s =
        (rwSet.foldl (fun found rw => rw.writeSet.foldl (fun found w =>
          if a = rw.address ∧ s = w.slot then some (bytesToHash w.newValue) else found)
          found) found).getD old from
    general rwSet e (e.storage a s) none rfl
  intro rwSet
  induction rwSet with
  | nil => exact fun _ _ _ now => now
  | cons rw rwSet ih =>
      intro e old found now
      exact ih _ old _ (storage_applyWrites rw.address rw.writeSet e a s old found now)

/-- What a write set leaves in a slot is one of its write items there. -/
theorem lastWrite_cases (rwSet : List RwVariable) (a : Address) (s : Hash) :
    lastWrite rwSet a s = none ∨
      ∃ rw ∈ rwSet, ∃ w ∈ rw.writeSet, a = rw.address ∧ s = w.slot ∧
        lastWrite rwSet a s = some (bytesToHash w.newValue) := by
  -- both folds keep the property of what they have found so far
  unfold lastWrite
  apply List.foldlRecOn (motive := fun found => found = none ∨ ∃ rw ∈ rwSet, ∃ w ∈ rw.writeSet,
    a = rw.address ∧ s = w.slot ∧ found = some (bytesToHash w.newValue))
  · exact Or.inl rfl
  · intro found before rw member
    apply List.foldlRecOn (motive := fun found => found = none ∨ ∃ rw ∈ rwSet, ∃ w ∈ rw.writeSet,
      a = rw.address ∧ s = w.slot ∧ found = some (bytesToHash w.newValue))
    · exact before
    · intro found before w listed
      by_cases here : a = rw.address ∧ s = w.slot
      · rw [if_pos here]
        exact Or.inr ⟨rw, member, w, listed, here.1, here.2, rfl⟩
      · rw [if_neg here]
        exact before

/-- A write set writes only the slots it names. -/
theorem lastWrite_eq_none {rwSet : List RwVariable} {a : Address} {s : Hash}
    (unnamed : ∀ rw ∈ rwSet, ∀ w ∈ rw.writeSet, ¬(a = rw.address ∧ s = w.slot)) :
    lastWrite rwSet a s = none := by
  rcases lastWrite_cases rwSet a s with none | ⟨rw, member, w, listed, here, slot, -⟩
  · exact none
  · exact absurd ⟨here, slot⟩ (unnamed rw member w listed)

/-- If all write items for a slot agree, that is what the write set leaves there. -/
theorem lastWrite_eq_some {rwSet : List RwVariable} {a : Address} {s v : Hash}
    (named : ∃ rw ∈ rwSet, ∃ w ∈ rw.writeSet, a = rw.address ∧ s = w.slot)
    (agree : ∀ rw ∈ rwSet, ∀ w ∈ rw.writeSet, a = rw.address → s = w.slot →
      bytesToHash w.newValue = v) : lastWrite rwSet a s = some v := by
  have entry : ∀ (addr : Address) (writes : List WriteSetItem) (found : Option Hash),
      (found ≠ none ∨ ∃ w ∈ writes, a = addr ∧ s = w.slot) →
      writes.foldl (fun found w =>
        if a = addr ∧ s = w.slot then some (bytesToHash w.newValue) else found) found ≠ none := by
    intro addr writes
    induction writes with
    | nil => exact fun found either => either.resolve_right (by simp)
    | cons w writes ih =>
        intro found either
        refine ih _ ?_
        dsimp only
        by_cases here : a = addr ∧ s = w.slot
        · rw [if_pos here]
          exact Or.inl nofun
        · rw [if_neg here]
          refine either.imp_right ?_
          rintro ⟨w', member, there⟩
          rcases List.mem_cons.1 member with rfl | later
          · exact absurd there here
          · exact ⟨w', later, there⟩
  have present : ∀ (rwSet : List RwVariable) (found : Option Hash),
      (found ≠ none ∨ ∃ rw ∈ rwSet, ∃ w ∈ rw.writeSet, a = rw.address ∧ s = w.slot) →
      rwSet.foldl (fun found rw => rw.writeSet.foldl (fun found w =>
        if a = rw.address ∧ s = w.slot then some (bytesToHash w.newValue) else found)
        found) found ≠ none := by
    intro rwSet
    induction rwSet with
    | nil => exact fun found either => either.resolve_right (by simp)
    | cons rw rwSet ih =>
        intro found either
        refine ih _ ?_
        rcases either with before | ⟨rw', member, named⟩
        · exact Or.inl (entry rw.address rw.writeSet found (Or.inl before))
        · rcases List.mem_cons.1 member with rfl | later
          · exact Or.inl (entry rw'.address rw'.writeSet found (Or.inr named))
          · exact Or.inr ⟨rw', later, named⟩
  rcases lastWrite_cases rwSet a s with none | ⟨rw, member, w, listed, here, slot, found⟩
  · exact absurd none (present rwSet .none (Or.inr named))
  · rw [found, agree rw member w listed here slot]

/-- A write set touches nothing but storage. -/
theorem applyWriteSet_frame (e : EVMState) (rwSet : List RwVariable) :
    (e.applyWriteSet rwSet).balance = e.balance ∧ (e.applyWriteSet rwSet).code = e.code := by
  have entry : ∀ (addr : Address) (writes : List WriteSetItem) (e : EVMState),
      (applyWrites addr e writes).balance = e.balance ∧
        (applyWrites addr e writes).code = e.code := by
    intro addr writes
    induction writes with
    | nil => exact fun _ => ⟨rfl, rfl⟩
    | cons w writes ih => exact fun e => ih (e.setStorageAt addr w.slot (bytesToHash w.newValue))
  induction rwSet generalizing e with
  | nil => exact ⟨rfl, rfl⟩
  | cons rw rwSet ih =>
      obtain ⟨balance, code⟩ := ih (applyWrites rw.address e rw.writeSet)
      obtain ⟨balance', code'⟩ := entry rw.address rw.writeSet e
      exact ⟨balance.trans balance', code.trans code'⟩

/-- Applying a write set a second time changes nothing. -/
theorem applyWriteSet_idem (e : EVMState) (rwSet : List RwVariable) :
    (e.applyWriteSet rwSet).applyWriteSet rwSet = e.applyWriteSet rwSet := by
  obtain ⟨balance, code⟩ := (e.applyWriteSet rwSet).applyWriteSet_frame rwSet
  refine EVMState.ext balance ?_ code
  funext a s
  rw [storage_applyWriteSet, storage_applyWriteSet]
  cases lastWrite rwSet a s <;> rfl

theorem storage_debit {e e' : EVMState} {a : Address} {amount : Int}
    (ran : e.debit a amount = .ok e') : e'.storage = e.storage := by
  unfold EVMState.debit at ran
  split at ran
  · cases ran
  · split at ran
    · cases ran
    · cases ran
      rfl

theorem storage_credit {e e' : EVMState} {a : Address} {amount : Int}
    (ran : e.credit a amount = .ok e') : e'.storage = e.storage := by
  unfold EVMState.credit at ran
  split at ran
  · cases ran
  · cases ran
    rfl

end EVMState

end CrossShard.Shard
