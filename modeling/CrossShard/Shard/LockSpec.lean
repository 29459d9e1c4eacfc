/-
# Shard.LockSpec -- what a `Lock` does, as a function of the locks held

`Locks` is what a shard holds for prepared transactions: funds by transaction and by address,
and the holder of each slot.  `Locks.lock` is the specification of a `Lock`: all of its funds
and slots, or nothing.  `locks_executeLock` says that `executeLock`, with its two tables, its
loop over the read set and its rollback, computes exactly that, so the outcome of a `Lock`
depends on the locks held, on one balance and on the slots it reads
(`Locks.lock_congr`), and on nothing else.  `Locks.cleanup` is the specification of the
clean-up after any other transaction (`locks_cleanupAfterExecution`).
-/
import CrossShard.Shard.FundLocks

namespace CrossShard.Shard

set_option autoImplicit false

open CrossShard.Library CrossShard.Protocol
open Chain (readItems ReadsSlot)

/-! ## The specification -/

/-- The locks a shard holds. -/
@[ext] structure Locks where
  funds : TxID → Option LockedFunds
  entries : Address → List LockedEntry
  slots : Address → Hash → Option TxID

def Chain.locks (c : Chain) : Locks := ⟨c.locked.get, c.entriesAt, c.slotHolder⟩

namespace Locks

def empty : Locks := ⟨fun _ => none, fun _ => [], fun _ _ => none⟩

/-- What the locks reserve at an address. -/
def amount (l : Locks) (a : Address) : Int := ((l.entries a).map LockedEntry.amount).sum

/-- A `Lock` can have all it asks for. -/
structure Grants (evm : EVMState) (l : Locks) (tx : Transaction) : Prop where
  covered : 0 < toBigInt tx.value →
    evm.canDebit tx.fromAddr (toBigInt tx.value) (l.amount tx.fromAddr) = true
  matched : ∀ p ∈ readItems tx.rwSet, evm.getStorageAt p.1 p.2.slot = bytesToHash p.2.value
  free : ∀ p ∈ readItems tx.rwSet, ∀ holder, l.slots p.1 p.2.slot = some holder →
    holder = tx.crossShardTxID

open Classical in
/-- The locks with all that `tx` asks for. -/
noncomputable def grant (l : Locks) (tx : Transaction) : Locks where
  funds x := if 0 < toBigInt tx.value ∧ x = tx.crossShardTxID then
    some ⟨tx.fromAddr, toBigInt tx.value⟩ else l.funds x
  entries a := if 0 < toBigInt tx.value ∧ a = tx.fromAddr then
    l.entries a ++ [⟨tx.crossShardTxID, toBigInt tx.value⟩] else l.entries a
  slots a s := if ReadsSlot tx a s then some tx.crossShardTxID else l.slots a s

open Classical in
/-- **The specification of a `Lock`**: everything or nothing. -/
noncomputable def lock (evm : EVMState) (l : Locks) (tx : Transaction) : Locks :=
  if Grants evm l tx then l.grant tx else l

/-- Nothing is held for `txID`. -/
structure Absent (l : Locks) (txID : TxID) : Prop where
  funds : l.funds txID = none
  entries : ∀ a, ∀ e ∈ l.entries a, e.txID ≠ txID
  slots : ∀ a s, l.slots a s ≠ some txID

/-- A `Lock` that asks for nothing. -/
structure LockFree (tx : Transaction) : Prop where
  value : toBigInt tx.value ≤ 0
  reads : readItems tx.rwSet = []

theorem grants_of_lockFree {evm : EVMState} {l : Locks} {tx : Transaction} (lockFree : LockFree tx) :
    Grants evm l tx := by
  refine ⟨fun positive => ?_, ?_, ?_⟩
  · have := lockFree.value
    omega
  · rw [lockFree.reads]
    exact nofun
  · rw [lockFree.reads]
    exact nofun

theorem grant_of_lockFree {l : Locks} {tx : Transaction} (lockFree : LockFree tx) :
    l.grant tx = l := by
  have none_read : ∀ a s, ¬ReadsSlot tx a s := by
    rintro a s ⟨p, member, -⟩
    rw [lockFree.reads] at member
    cases member
  have no_value : ¬0 < toBigInt tx.value := by
    have := lockFree.value
    omega
  ext1
  · funext x
    exact if_neg fun both => no_value both.1
  · funext a
    exact if_neg fun both => no_value both.1
  · funext a s
    exact if_neg (none_read a s)

theorem lock_of_lockFree {evm : EVMState} {l : Locks} {tx : Transaction} (lockFree : LockFree tx) :
    l.lock evm tx = l := by
  rw [lock, if_pos (grants_of_lockFree lockFree), grant_of_lockFree lockFree]

/-- A `Lock` holds nothing for other transactions. -/
theorem Absent.lock {evm : EVMState} {l : Locks} {tx : Transaction} {txID : TxID}
    (absent : l.Absent txID) (other : tx.crossShardTxID ≠ txID ∨ LockFree tx) :
    (l.lock evm tx).Absent txID := by
  rcases other with other | lockFree
  · unfold Locks.lock
    split
    · refine ⟨?_, ?_, ?_⟩
      · show (if _ then _ else _) = none
        rw [if_neg fun both => other both.2.symm]
        exact absent.funds
      · intro a e member
        change e ∈ (if _ then _ else _) at member
        split at member
        · rcases List.mem_append.1 member with member | member
          · exact absent.entries a e member
          · rw [List.mem_singleton.1 member]
            exact other
        · exact absent.entries a e member
      · intro a s
        simp only [grant]
        split
        · intro same
          exact other (Option.some.inj same)
        · exact absent.slots a s
    · exact absent
  · rw [lock_of_lockFree lockFree]
    exact absent

/-- The locks without the funds of `x`. -/
def clearFunds (l : Locks) (x : TxID) : Locks :=
  { l with
    funds := fun y => if y = x then none else l.funds y
    entries := fun a =>
      if (l.funds x).map LockedFunds.address = some a then
        (l.entries a).eraseP fun entry => entry.txID = x
      else l.entries a }

/-- The locks without the slots of `x`. -/
def clearSlots (l : Locks) (x : TxID) : Locks :=
  { l with slots := fun a s => if l.slots a s = some x then none else l.slots a s }

/-- **The specification of the clean-up** after a transaction that has executed. -/
def cleanup (l : Locks) (tx : Transaction) : Locks :=
  if tx.crossShardTxID = "" then l
  else
    match tx.txType with
    | .crossDebit => l.clearFunds tx.crossShardTxID
    | .crossAbort | .unlock => (l.clearSlots tx.crossShardTxID).clearFunds tx.crossShardTxID
    | .finalize => l.clearSlots tx.crossShardTxID
    | _ => l

/-- The locks with the reservation that `tx` asks for, if its sender can pay. -/
def reserve (evm : EVMState) (l : Locks) (tx : Transaction) : Locks :=
  if 0 < toBigInt tx.value ∧
      evm.canDebit tx.fromAddr (toBigInt tx.value) (l.amount tx.fromAddr) = true then
    { l with
      funds := fun x => if x = tx.crossShardTxID then some ⟨tx.fromAddr, toBigInt tx.value⟩
        else l.funds x
      entries := fun a => if a = tx.fromAddr then
        l.entries a ++ [⟨tx.crossShardTxID, toBigInt tx.value⟩] else l.entries a }
  else l

/-- **The specification of a refused `Lock`**, also for an ID that holds something: the
reservation is made and taken back, and the rest of what the ID holds goes with it. -/
def refuse (evm : EVMState) (l : Locks) (tx : Transaction) : Locks :=
  ((l.reserve evm tx).clearFunds tx.crossShardTxID).clearSlots tx.crossShardTxID

/-! Clean-ups commute, and a second one finds nothing. -/

theorem clearFunds_idem (l : Locks) (x : TxID) : (l.clearFunds x).clearFunds x = l.clearFunds x := by
  have none : (l.clearFunds x).funds x = none := if_pos rfl
  ext1
  · funext y
    show (if y = x then Option.none else (l.clearFunds x).funds y) = (l.clearFunds x).funds y
    split
    · rename_i own
      rw [own, none]
    · rfl
  · funext a
    show (if ((l.clearFunds x).funds x).map LockedFunds.address = some a then _ else _) = _
    rw [none, Option.map_none, if_neg nofun]
  · rfl

theorem clearFunds_comm (l : Locks) (x y : TxID) :
    (l.clearFunds x).clearFunds y = (l.clearFunds y).clearFunds x := by
  by_cases same : y = x
  · rw [same]
  have kept : (l.clearFunds x).funds y = l.funds y := if_neg same
  have kept' : (l.clearFunds y).funds x = l.funds x := if_neg (Ne.symm same)
  ext1
  · funext z
    show (if z = y then none else if z = x then none else l.funds z) =
      if z = x then none else if z = y then none else l.funds z
    split <;> split <;> rfl
  · funext a
    show (if ((l.clearFunds x).funds y).map LockedFunds.address = some a then
        ((l.clearFunds x).entries a).eraseP fun entry => entry.txID = y
      else (l.clearFunds x).entries a) =
      if ((l.clearFunds y).funds x).map LockedFunds.address = some a then
        ((l.clearFunds y).entries a).eraseP fun entry => entry.txID = x
      else (l.clearFunds y).entries a
    rw [kept, kept']
    simp only [clearFunds]
    split <;> split
    · exact Chain.eraseP_txID_comm (Ne.symm same) _
    · rfl
    · rfl
    · rfl
  · rfl

theorem clearSlots_idem (l : Locks) (x : TxID) : (l.clearSlots x).clearSlots x = l.clearSlots x := by
  ext1
  · rfl
  · rfl
  · funext a s
    simp only [clearSlots]
    split
    · rfl
    · rfl

theorem clearSlots_comm (l : Locks) (x y : TxID) :
    (l.clearSlots x).clearSlots y = (l.clearSlots y).clearSlots x := by
  ext1
  · rfl
  · rfl
  · funext a s
    simp only [clearSlots]
    grind

/-- A clean-up releases the slots of its ID, its funds, both or nothing. -/
theorem cleanup_eq (tx : Transaction) : ∃ slots funds : Bool, ∀ l : Locks,
    l.cleanup tx =
      let l' := if slots then l.clearSlots tx.crossShardTxID else l
      if funds then l'.clearFunds tx.crossShardTxID else l' := by
  by_cases unnamed : tx.crossShardTxID = ""
  · exact ⟨false, false, fun l => if_pos unnamed⟩
  cases kind : tx.txType with
  | crossDebit => exact ⟨false, true, fun l => by simp [cleanup, unnamed, kind]⟩
  | crossAbort => exact ⟨true, true, fun l => by simp [cleanup, unnamed, kind]⟩
  | unlock => exact ⟨true, true, fun l => by simp [cleanup, unnamed, kind]⟩
  | finalize => exact ⟨true, false, fun l => by simp [cleanup, unnamed, kind]⟩
  | _ => exact ⟨false, false, fun l => by simp [cleanup, unnamed, kind]⟩

theorem cleanup_idem (l : Locks) (tx : Transaction) : (l.cleanup tx).cleanup tx = l.cleanup tx := by
  obtain ⟨slots, funds, shape⟩ := cleanup_eq tx
  have apart : ∀ (l : Locks) x, (l.clearFunds x).clearSlots x = (l.clearSlots x).clearFunds x :=
    fun _ _ => rfl
  rw [shape, shape]
  cases slots <;> cases funds <;> simp [apart, clearFunds_idem, clearSlots_idem]

theorem cleanup_comm (l : Locks) (tx tx' : Transaction) :
    (l.cleanup tx).cleanup tx' = (l.cleanup tx').cleanup tx := by
  obtain ⟨slots, funds, shape⟩ := cleanup_eq tx
  obtain ⟨slots', funds', shape'⟩ := cleanup_eq tx'
  have apart : ∀ (l : Locks) x y, (l.clearFunds x).clearSlots y = (l.clearSlots y).clearFunds x :=
    fun _ _ _ => rfl
  rw [shape, shape, shape', shape']
  have funds_comm := fun l : Locks => l.clearFunds_comm tx.crossShardTxID tx'.crossShardTxID
  have slots_comm := fun l : Locks => l.clearSlots_comm tx.crossShardTxID tx'.crossShardTxID
  cases slots <;> cases funds <;> cases slots' <;> cases funds' <;>
    simp [apart, funds_comm, slots_comm]

theorem foldl_cleanup_comm (txs : List Transaction) (l : Locks) (tx : Transaction) :
    (txs.foldl cleanup l).cleanup tx = txs.foldl cleanup (l.cleanup tx) := by
  induction txs generalizing l with
  | nil => rfl
  | cons first txs ih => rw [List.foldl_cons, List.foldl_cons, ih, cleanup_comm]

/-- Where nothing is left for `tx` to release, it can be left out. -/
theorem foldl_cleanup_filter {l : Locks} {tx : Transaction} (released : l.cleanup tx = l)
    (txs : List Transaction) :
    (txs.filter fun tx' => tx' ≠ tx).foldl cleanup l = txs.foldl cleanup l := by
  induction txs generalizing l with
  | nil => rfl
  | cons first txs ih =>
      have later : (l.cleanup first).cleanup tx = l.cleanup first := by rw [cleanup_comm, released]
      by_cases same : first = tx
      · rw [List.filter_cons_of_neg (by simpa using same), List.foldl_cons, same, released]
        exact ih released
      · rw [List.filter_cons_of_pos (by simpa using same), List.foldl_cons, List.foldl_cons]
        exact ih later

theorem Absent.clearFunds {l : Locks} {y : TxID} (absent : l.Absent y) (x : TxID) :
    (l.clearFunds x).Absent y where
  funds := by
    show (if y = x then none else l.funds y) = none
    rw [absent.funds, ite_self]
  entries a e member := by
    change e ∈ (if _ then _ else _) at member
    split at member
    · exact absent.entries a e (List.mem_of_mem_eraseP member)
    · exact absent.entries a e member
  slots := absent.slots

theorem Absent.clearSlots {l : Locks} {y : TxID} (absent : l.Absent y) (x : TxID) :
    (l.clearSlots x).Absent y where
  funds := absent.funds
  entries := absent.entries
  slots a s := by
    show (if l.slots a s = some x then none else l.slots a s) ≠ some y
    split
    · nofun
    · exact absent.slots a s

/-- A clean-up takes no lock. -/
theorem Absent.cleanup {l : Locks} {y : TxID} (absent : l.Absent y) (tx : Transaction) :
    (l.cleanup tx).Absent y := by
  unfold Locks.cleanup
  split
  · exact absent
  · split
    · exact absent.clearFunds _
    · exact (absent.clearSlots _).clearFunds _
    · exact (absent.clearSlots _).clearFunds _
    · exact absent.clearSlots _
    · exact absent

theorem Absent.clearFunds_own {l : Locks} {x : TxID} (absent : l.Absent x) : l.clearFunds x = l := by
  ext1
  · funext y
    show (if y = x then none else l.funds y) = l.funds y
    split
    · rename_i own
      rw [own, absent.funds]
    · rfl
  · funext a
    simp [Locks.clearFunds, absent.funds]
  · rfl

theorem Absent.clearSlots_own {l : Locks} {x : TxID} (absent : l.Absent x) : l.clearSlots x = l := by
  ext1
  · rfl
  · rfl
  · funext a s
    exact if_neg (absent.slots a s)

/-- Where nothing is held, nothing is released. -/
theorem Absent.cleanup_own {l : Locks} {x : TxID} {tx : Transaction} (absent : l.Absent x)
    (own : tx.crossShardTxID = x) : l.cleanup tx = l := by
  subst own
  unfold Locks.cleanup
  split
  · rfl
  · split
    · exact absent.clearFunds_own
    · rw [absent.clearSlots_own, absent.clearFunds_own]
    · rw [absent.clearSlots_own, absent.clearFunds_own]
    · exact absent.clearSlots_own
    · rfl

/-- A `Lock` looks at one balance and at the slots it reads. -/
theorem lock_congr {evm evm' : EVMState} (l : Locks) {tx : Transaction}
    (balance : 0 < toBigInt tx.value → evm'.balance tx.fromAddr = evm.balance tx.fromAddr)
    (storage : evm'.storage = evm.storage) : l.lock evm' tx = l.lock evm tx := by
  have same : Grants evm' l tx ↔ Grants evm l tx := by
    constructor
    · intro grants
      refine ⟨fun positive => ?_, fun p member => ?_, grants.free⟩
      · have covered := grants.covered positive
        unfold EVMState.canDebit at covered ⊢
        rwa [balance positive] at covered
      · have matched := grants.matched p member
        unfold EVMState.getStorageAt at matched ⊢
        rwa [storage] at matched
    · intro grants
      refine ⟨fun positive => ?_, fun p member => ?_, grants.free⟩
      · have covered := grants.covered positive
        unfold EVMState.canDebit at covered ⊢
        rwa [balance positive]
      · have matched := grants.matched p member
        unfold EVMState.getStorageAt at matched ⊢
        rwa [storage]
  unfold Locks.lock
  by_cases grants : Grants evm l tx
  · rw [if_pos grants, if_pos (same.2 grants)]
  · rw [if_neg grants, if_neg fun grants' => grants (same.1 grants')]

end Locks

/-! ## The code meets it -/

namespace Chain

theorem lockSlot_of_free {c : Chain} {txID : TxID} {addr : Address} {slot : Hash}
    (free : ∀ holder, c.slotHolder addr slot = some holder → holder = txID) :
    ∃ c', c.lockSlot txID addr slot = .ok c' := by
  cases result : c.lockSlot txID addr slot with
  | ok c' => exact ⟨c', rfl⟩
  | error err =>
      obtain ⟨holder, held, other, -⟩ := lockSlot_error result
      exact absurd (free holder held) other

theorem lockReadItems_of_free {evm : EVMState} {txID : TxID} {items : List (Address × ReadSetItem)}
    {c : Chain} (lockedSlots : List SlotKey)
    (matched : ∀ p ∈ items, evm.getStorageAt p.1 p.2.slot = bytesToHash p.2.value)
    (free : ∀ p ∈ items, ∀ holder, c.slotHolder p.1 p.2.slot = some holder → holder = txID) :
    ∃ c', lockReadItems evm txID c lockedSlots items = (c', none) := by
  induction items generalizing c lockedSlots with
  | nil => exact ⟨c, rfl⟩
  | cons first rest ih =>
      obtain ⟨addr, item⟩ := first
      obtain ⟨c₁, locked⟩ := lockSlot_of_free (free (addr, item) (List.mem_cons_self ..))
      obtain ⟨-, -, holders⟩ := lockSlot_ok locked
      have value := matched (addr, item) (List.mem_cons_self ..)
      simp only [lockReadItems, value, ne_eq, not_true_eq_false, if_false, locked]
      apply ih
      · intro p member
        exact matched p (List.mem_cons_of_mem _ member)
      · intro p member holder held
        rw [holders] at held
        split at held
        · exact (Option.some.inj held).symm
        · exact free p (List.mem_cons_of_mem _ member) holder held

theorem amount_locks (c : Chain) (a : Address) : c.locks.amount a = c.getLockedAmountForAddress a :=
  (c.getLockedAmountForAddress_eq_sum a).symm

/-- A `Lock` that can have all it asks for is granted. -/
theorem executeLock_of_grants {c : Chain} {evm : EVMState} {tx : Transaction}
    (grants : c.locks.Grants evm tx) : (c.executeLock evm tx).2 = true := by
  have reserves : c.reserveFunds evm tx = some (c.reserved tx) := by
    unfold reserveFunds reserved
    dsimp only
    split
    · rename_i positive
      have covered := grants.covered positive
      rw [amount_locks] at covered
      rw [if_pos covered]
    · rfl
  have holders : (c.reserved tx).slotHolder = c.slotHolder := by
    rw [reserved_eq]
    rfl
  obtain ⟨c', pass⟩ := lockReadItems_of_free (c := c.reserved tx) [] grants.matched (by
    rw [holders]
    exact grants.free)
  simp only [executeLock, reserves, validateAndLockReadSet, pass]

theorem grants_of_granted {c c' : Chain} {evm : EVMState} {tx : Transaction}
    (lock : Granted c evm tx c') : c.locks.Grants evm tx where
  covered positive := by
    rw [amount_locks]
    exact lock.covered positive
  matched := lock.matched
  free p member := lock.free _ _ ⟨p, member, rfl, rfl⟩

theorem locks_granted {c c' : Chain} {evm : EVMState} {tx : Transaction}
    (lock : Granted c evm tx c') : c'.locks = c.locks.grant tx := by
  have funds : SameFunds c' (c.reserved tx) := by
    rw [lock.chain]
    exact sameFunds_of_eq rfl rfl
  ext1
  · funext x
    show c'.locked.get x = _
    rw [funds.locked]
    unfold reserved Locks.grant
    by_cases positive : 0 < toBigInt tx.value
    · simp [positive, Chain.lockFunds, locks]
    · simp [positive, locks]
  · funext a
    show c'.entriesAt a = _
    rw [funds.entries]
    unfold reserved Locks.grant
    by_cases positive : 0 < toBigInt tx.value
    · simp [positive, locks]
    · simp [positive, locks]
  · funext a s
    show c'.slotHolder a s = _
    unfold Locks.grant
    by_cases reads : ReadsSlot tx a s
    · simp [reads, lock.taken a s reads]
    · simp [reads, lock.kept a s reads, locks]

theorem locks_refused {c c' : Chain} {evm : EVMState} {tx : Transaction}
    (kind : tx.txType = .lock) (absent : c.locks.Absent tx.crossShardTxID)
    (lock : Refused c tx c') (result : c.executeLock evm tx = (c', false)) :
    c'.locks = c.locks := by
  have funds := sameFunds_refused kind absent.funds absent.entries result
  ext1
  · funext x
    exact funds.locked x
  · funext a
    exact funds.entries a
  · funext a s
    show c'.slotHolder a s = c.slotHolder a s
    apply Option.ext
    intro holder
    by_cases own : holder = tx.crossShardTxID
    · subst own
      exact iff_of_false (lock.forgotten.slots a s) (absent.slots a s)
    · exact slots_of_view (lock.others holder own) a s

theorem locks_clearLockLocked (c : Chain) (x : TxID) :
    (c.clearLockLocked x).locks = c.locks.clearFunds x := by
  ext1
  · funext y
    exact get_locked_clearLockLocked c x y
  · funext a
    exact entriesAt_clearLockLocked c x a
  · funext a s
    show (c.clearLockLocked x).slotHolder a s = c.slotHolder a s
    rw [clearLockLocked_eq]
    rfl

theorem locks_reserveFunds (c : Chain) (evm : EVMState) (tx : Transaction) :
    ((c.reserveFunds evm tx).getD c).locks = c.locks.reserve evm tx := by
  unfold reserveFunds Locks.reserve
  rw [amount_locks]
  dsimp only
  by_cases positive : 0 < toBigInt tx.value
  · by_cases covered : evm.canDebit tx.fromAddr (toBigInt tx.value)
      (c.getLockedAmountForAddress tx.fromAddr) = true
    · rw [if_pos positive, if_pos covered, if_pos ⟨positive, covered⟩]
      ext1
      · funext x
        exact FMap.get_set _ _ _ _
      · funext a
        exact entriesAt_lockFunds ..
      · rfl
    · rw [if_pos positive, if_neg covered, if_neg fun both => covered both.2]
      rfl
  · rw [if_neg positive, if_neg fun both => positive both.1]
    rfl

/-- A refused `Lock` meets its specification. -/
theorem locks_of_refused {c c' : Chain} {evm : EVMState} {tx : Transaction}
    (kind : tx.txType = .lock) (lock : Refused c tx c')
    (result : c.executeLock evm tx = (c', false)) : c'.locks = c.locks.refuse evm tx := by
  have funds := funds_refused kind result
  have cleared := locks_clearLockLocked ((c.reserveFunds evm tx).getD c) tx.crossShardTxID
  rw [locks_reserveFunds] at cleared
  ext1
  · funext x
    exact (funds.locked x).trans (congrFun (congrArg Locks.funds cleared) x)
  · funext a
    exact (funds.entries a).trans (congrFun (congrArg Locks.entries cleared) a)
  · funext a s
    have reserved : (c.locks.reserve evm tx).slots = c.slotHolder := by
      unfold Locks.reserve
      split <;> rfl
    show c'.slotHolder a s =
      if (c.locks.reserve evm tx).slots a s = some tx.crossShardTxID then none
      else (c.locks.reserve evm tx).slots a s
    rw [reserved]
    split
    · rename_i own
      apply Option.eq_none_iff_forall_ne_some.2
      intro holder held
      by_cases same : holder = tx.crossShardTxID
      · exact lock.forgotten.slots a s (same ▸ held)
      · have before := (slots_of_view (lock.others holder same) a s).1 held
        rw [own] at before
        exact same (Option.some.inj before).symm
    · rename_i other
      apply Option.ext
      intro holder
      by_cases same : holder = tx.crossShardTxID
      · exact iff_of_false (same ▸ lock.forgotten.slots a s) (same ▸ other)
      · exact slots_of_view (lock.others holder same) a s

theorem locks_lock_of_granted {c c' : Chain} {evm : EVMState} {tx : Transaction}
    (lock : Granted c evm tx c') : c'.locks = c.locks.lock evm tx := by
  rw [Locks.lock, if_pos (grants_of_granted lock)]
  exact locks_granted lock

/-- **`executeLock` meets the specification.** -/
theorem locks_executeLock {c : Chain} {evm : EVMState} {tx : Transaction}
    (kind : tx.txType = .lock) (absent : c.locks.Absent tx.crossShardTxID) :
    (c.executeLock evm tx).1.locks = c.locks.lock evm tx := by
  rcases c.executeLock_cases evm kind with ⟨c', result, lock⟩ | ⟨c', result, lock⟩
  · rw [result]
    exact locks_lock_of_granted lock
  · rw [result, Locks.lock, if_neg]
    · exact locks_refused kind absent lock result
    · intro grants
      have granted := executeLock_of_grants grants
      rw [result] at granted
      cases granted

theorem locks_unlockAllSlotsForTx (c : Chain) (x : TxID) :
    (c.unlockAllSlotsForTx x).locks = c.locks.clearSlots x := by
  ext1
  · rfl
  · rfl
  · funext a s
    exact slotHolder_unlockAllSlotsForTx c x a s

theorem locks_clearAllMetadata (c : Chain) (x : TxID) :
    (c.clearAllMetadata x).locks = (c.locks.clearFunds x).clearSlots x := by
  rw [← locks_clearLockLocked]
  exact locks_unlockAllSlotsForTx (((c.clearLockLocked x).clearPendingCredit x).clearPendingCall x) x

/-- **The clean-up meets its specification.** -/
theorem locks_cleanupAfterExecution (c : Chain) (tx : Transaction) :
    (c.cleanupAfterExecution tx).locks = c.locks.cleanup tx := by
  unfold cleanupAfterExecution Locks.cleanup
  dsimp only
  split
  · rfl
  · cases tx.txType with
    | crossDebit => exact locks_clearLockLocked c _
    | crossCredit =>
        dsimp only
        unfold clearPendingCreditForAddressLocked
        split <;> rfl
    | crossAbort => exact locks_clearAllMetadata c _
    | finalize => exact locks_unlockAllSlotsForTx c _
    | unlock =>
        have released : (((c.unlockAllSlotsForTx tx.crossShardTxID).clearPendingRwSet
            tx.crossShardTxID)).locks = c.locks.clearSlots tx.crossShardTxID :=
          locks_unlockAllSlotsForTx c _
        dsimp only
        rw [locks_clearAllMetadata, released]
        ext1
        · rfl
        · rfl
        · funext a s
          show (if (if _ then _ else _) = _ then none else (if _ then _ else _)) = if _ then _ else _
          split <;> simp_all
    | _ => rfl

/-- Cleaning up after a transaction that holds nothing releases nothing. -/
theorem locks_cleanup_of_absent {c : Chain} {tx : Transaction}
    (absent : c.locks.Absent tx.crossShardTxID) : (c.cleanupAfterExecution tx).locks = c.locks := by
  rw [locks_cleanupAfterExecution, absent.cleanup_own rfl]

end Chain

/-! ## Runs -/

section Step

variable {shardID : Int} {vm : VM} {es : List Event} {e : Event} {n n' : Node}

/-- Every event keeps the two tables of reservations in agreement. -/
theorem Chain.Indexed.step (indexed : n.chain.Indexed) (traced : Traced shardID es n)
    (ok : Disciplined es) (taken : Taken vm n e n') : n'.chain.Indexed := by
  cases taken with
  | ordered tx idle involved =>
      apply SameFunds.indexed _ indexed
      show SameFunds ((n.chain.noteOrder tx).addTx _) n.chain
      rw [noteOrder_eq]
      exact sameFunds_of_eq rfl rfl
  | granted tx rest successful busy kind chain lock =>
      have waits : tx ∈ n.outstanding := by simp [Node.outstanding_of_busy busy]
      exact indexed.granted (fun _ => (traced.lock_fresh ok waits kind).1) lock
  | refused tx rest successful busy kind chain lock result =>
      have waits : tx ∈ n.outstanding := by simp [Node.outstanding_of_busy busy]
      exact indexed.refused kind (fun _ => (traced.lock_fresh ok waits kind).1) result
  | applied tx rest successful busy kind free evm ran => exact indexed.cleanupAfterExecution tx
  | _ => exact SameFunds.indexed (c := n.chain) (sameFunds_of_eq rfl rfl) indexed

/-- Nothing is held for a transaction whose `Lock` waits. -/
theorem Traced.absent_of_lock (traced : Traced shardID es n) (ok : Disciplined es)
    (indexed : n.chain.Indexed) {tx : Transaction} (waits : tx ∈ n.outstanding)
    (kind : tx.txType = .lock) : n.chain.locks.Absent tx.crossShardTxID := by
  obtain ⟨funds, -, slots⟩ := traced.lock_fresh ok waits kind
  exact ⟨funds, indexed.unlisted funds, slots⟩

/-- **Executing a `Lock`** does to the locks what the specification says. -/
theorem Taken.locks_lock {tx : Transaction} (taken : Taken vm n (.execute tx) n')
    (kind : tx.txType = .lock) (absent : n.chain.locks.Absent tx.crossShardTxID) :
    n'.evm = n.evm ∧ n'.chain.locks = n.chain.locks.lock n.evm tx := by
  cases taken with
  | skipped _ rest successful busy reason =>
      rcases reason with conflict | ⟨other, -⟩
      · simp [Chain.checkLocalTxLockConflict, kind] at conflict
      · exact absurd kind other
  | granted _ rest successful busy _ chain lock =>
      exact ⟨rfl, Chain.locks_lock_of_granted lock⟩
  | refused _ rest successful busy _ chain lock result =>
      refine ⟨rfl, ?_⟩
      have spec : (n.chain.executeLock n.evm tx).1.locks = n.chain.locks.lock n.evm tx :=
        Chain.locks_executeLock kind absent
      rw [result] at spec
      exact spec
  | applied _ rest successful busy other free evm ran => exact absurd kind other

end Step

end CrossShard.Shard
