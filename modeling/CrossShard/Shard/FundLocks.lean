/-
# Shard.FundLocks -- reserved funds and the balances behind them

A `Lock` reserves the value of a transfer in two tables, `locked` by transaction and
`lockedByAddr` by address.  `Indexed` says that they agree; `SameFunds` that an operation
leaves both readings alone.

The reservation is respected by the next `Lock` (`CanDebit` subtracts it) but not by
`executeLocalTx`, which compares with the raw balance.  A local transfer that was checked
when it was submitted can so spend funds that a `Lock` of the same block has just
reserved, and the debit of the committed transaction then fails
(`local_transfer_spends_reserved_funds`).  That check is all that is missing: the
reservations are covered in every state of a run exactly when each executed local transfer
would pass the check of the `Lock` branch at that moment
(`reservations_covered_iff`).
-/
import Mathlib.Algebra.Order.BigOperators.Group.List
import Mathlib.Algebra.Order.Ring.Int
import CrossShard.Shard.Provenance

namespace CrossShard.Shard

set_option autoImplicit false

open CrossShard.Library CrossShard.Protocol
open Chain (debitTx creditTx crossTx lockTx)

/-! ## The two tables -/

namespace Chain

theorem getLockedAmountForAddress_eq_sum (c : Chain) (a : Address) :
    c.getLockedAmountForAddress a = ((c.entriesAt a).map LockedEntry.amount).sum := by
  unfold getLockedAmountForAddress
  rw [List.sum_eq_foldl, List.foldl_map]

/-- The reservations by transaction and by address are the same ones. -/
structure Indexed (c : Chain) : Prop where
  entry : ∀ a, ∀ e ∈ c.entriesAt a, c.locked.get e.txID = some ⟨a, e.amount⟩
  lock : ∀ txID lock, c.locked.get txID = some lock → ⟨txID, lock.amount⟩ ∈ c.entriesAt lock.address
  nodup : ∀ a, ((c.entriesAt a).map LockedEntry.txID).Nodup

/-- Both tables read the same in `c'` and `c`. -/
structure SameFunds (c' c : Chain) : Prop where
  locked : ∀ txID, c'.locked.get txID = c.locked.get txID
  entries : ∀ a, c'.entriesAt a = c.entriesAt a

theorem sameFunds_of_eq {c c' : Chain} (locked : c'.locked = c.locked)
    (lockedByAddr : c'.lockedByAddr = c.lockedByAddr) : SameFunds c' c :=
  ⟨fun _ => by rw [locked], fun _ => by rw [entriesAt, lockedByAddr, entriesAt]⟩

theorem SameFunds.amount {c c' : Chain} (same : SameFunds c' c) (a : Address) :
    c'.getLockedAmountForAddress a = c.getLockedAmountForAddress a := by
  rw [getLockedAmountForAddress_eq_sum, getLockedAmountForAddress_eq_sum, same.entries]

theorem SameFunds.indexed {c c' : Chain} (same : SameFunds c' c) (indexed : Indexed c) :
    Indexed c' where
  entry a e member := by
    rw [same.entries] at member
    rw [same.locked]
    exact indexed.entry a e member
  lock txID lock found := by
    rw [same.locked] at found
    rw [same.entries]
    exact indexed.lock txID lock found
  nodup a := by
    rw [same.entries]
    exact indexed.nodup a

theorem Indexed.unlisted {c : Chain} (indexed : Indexed c) {txID : TxID}
    (absent : c.locked.get txID = none) (a : Address) : ∀ e ∈ c.entriesAt a, e.txID ≠ txID := by
  intro e member same
  have found := indexed.entry a e member
  rw [same, absent] at found
  cases found

theorem Indexed.lockFunds {c : Chain} (indexed : Indexed c) {txID : TxID}
    (absent : c.locked.get txID = none) (addr : Address) (amount : Int) :
    Indexed (c.lockFunds txID addr amount) where
  entry a e member := by
    rw [entriesAt_lockFunds] at member
    have old : ∀ e ∈ c.entriesAt a,
        (c.lockFunds txID addr amount).locked.get e.txID = some ⟨a, e.amount⟩ := by
      intro e member
      simp only [Chain.lockFunds, FMap.get_set, indexed.unlisted absent a e member, if_false]
      exact indexed.entry a e member
    split at member
    · rename_i here
      rcases List.mem_append.1 member with member | new
      · exact old e member
      · rw [List.mem_singleton.1 new]
        simp [Chain.lockFunds, here]
    · exact old e member
  lock x lock found := by
    rw [entriesAt_lockFunds]
    simp only [Chain.lockFunds, FMap.get_set] at found
    split at found
    · rename_i own
      cases found
      simp [own]
    · have member := indexed.lock x lock found
      split
      · exact List.mem_append_left _ member
      · exact member
  nodup a := by
    rw [entriesAt_lockFunds]
    split
    · rw [List.map_append, List.nodup_append]
      refine ⟨indexed.nodup a, List.nodup_singleton _, fun x listed y new same => ?_⟩
      obtain ⟨e, member, rfl⟩ := List.mem_map.1 listed
      rw [List.mem_singleton.1 new] at same
      exact indexed.unlisted absent a e member same
    · exact indexed.nodup a

theorem amount_lockFunds (c : Chain) (txID : TxID) (addr : Address) (amount : Int) (a : Address) :
    (c.lockFunds txID addr amount).getLockedAmountForAddress a =
      c.getLockedAmountForAddress a + if a = addr then amount else 0 := by
  simp only [getLockedAmountForAddress_eq_sum, entriesAt_lockFunds]
  split <;> simp

theorem Indexed.clearLockLocked {c : Chain} (indexed : Indexed c) (txID : TxID) :
    Indexed (c.clearLockLocked txID) where
  entry a e member := by
    rw [entriesAt_clearLockLocked] at member
    rw [get_locked_clearLockLocked]
    have old : e ∈ c.entriesAt a := by
      split at member
      · exact List.mem_of_mem_eraseP member
      · exact member
    have found := indexed.entry a e old
    rw [if_neg, found]
    -- the entry of `txID` at its address is the one that was erased
    intro own
    rw [own] at found
    rw [found, Option.map_some, if_pos rfl] at member
    have left := List.mem_map_of_mem (f := LockedEntry.txID) member
    have erased : ((c.entriesAt a).eraseP fun e => e.txID = txID).map LockedEntry.txID =
        ((c.entriesAt a).map LockedEntry.txID).erase txID := by
      rw [List.erase_eq_eraseP', List.eraseP_map]
      rfl
    rw [erased, own] at left
    exact (indexed.nodup a).not_mem_erase left
  lock x lock found := by
    rw [get_locked_clearLockLocked] at found
    split at found
    · cases found
    · rename_i other
      have member := indexed.lock x lock found
      rw [entriesAt_clearLockLocked]
      split
      · exact (List.mem_eraseP_of_neg (by simpa using other)).2 member
      · exact member
  nodup a := by
    rw [entriesAt_clearLockLocked]
    split
    · exact (indexed.nodup a).sublist (List.eraseP_sublist.map _)
    · exact indexed.nodup a

theorem sum_eraseP {p : LockedEntry → Bool} {l : List LockedEntry} {e : LockedEntry} (member : e ∈ l)
    (chosen : p e) (only : ∀ e' ∈ l, p e' → e'.amount = e.amount) :
    ((l.eraseP p).map LockedEntry.amount).sum = (l.map LockedEntry.amount).sum - e.amount := by
  obtain ⟨e', before, after, -, chosen', split, erased⟩ := List.exists_of_eraseP member chosen
  have same := only e' (by simp [split]) chosen'
  rw [erased, split]
  simp only [List.map_append, List.map_cons, List.sum_append, List.sum_cons, same]
  omega

/-- Clearing a lock releases exactly its amount at its address. -/
theorem Indexed.amount_clearLockLocked {c : Chain} (indexed : Indexed c) {txID : TxID}
    {lock : LockedFunds} (found : c.locked.get txID = some lock) (a : Address) :
    (c.clearLockLocked txID).getLockedAmountForAddress a =
      c.getLockedAmountForAddress a - if a = lock.address then lock.amount else 0 := by
  simp only [getLockedAmountForAddress_eq_sum, entriesAt_clearLockLocked, found, Option.map_some,
    Option.some.injEq]
  by_cases here : a = lock.address
  · rw [if_pos here.symm, if_pos here]
    have member := indexed.lock txID lock found
    rw [← here] at member
    refine sum_eraseP member (by simp) fun e listed own => ?_
    have found' := indexed.entry a e listed
    rw [of_decide_eq_true own, found] at found'
    cases found'
    rfl
  · rw [if_neg (Ne.symm here), if_neg here, Int.sub_zero]

theorem SameFunds.trans {c₁ c₂ c₃ : Chain} (first : SameFunds c₁ c₂) (second : SameFunds c₂ c₃) :
    SameFunds c₁ c₃ :=
  ⟨fun txID => (first.locked txID).trans (second.locked txID),
    fun a => (first.entries a).trans (second.entries a)⟩

theorem SameFunds.clearLockLocked {c c' : Chain} (same : SameFunds c' c) (txID : TxID) :
    SameFunds (c'.clearLockLocked txID) (c.clearLockLocked txID) where
  locked x := by rw [get_locked_clearLockLocked, get_locked_clearLockLocked, same.locked]
  entries a := by
    rw [entriesAt_clearLockLocked, entriesAt_clearLockLocked, same.locked, same.entries]

/-- The transactions whose cleanup clears the fund lock of their ID. -/
def ClearsFunds (tx : Transaction) : Prop :=
  tx.txType = .crossDebit ∨ tx.txType = .crossAbort ∨ tx.txType = .unlock

theorem sameFunds_clearAllMetadata (c : Chain) (txID : TxID) :
    SameFunds (c.clearAllMetadata txID) (c.clearLockLocked txID) := by
  unfold clearAllMetadata
  generalize c.clearLockLocked txID = cleared
  exact sameFunds_of_eq rfl rfl

theorem sameFunds_cleanup_of_clears (c : Chain) {tx : Transaction} (clears : ClearsFunds tx)
    (named : tx.crossShardTxID ≠ "") :
    SameFunds (c.cleanupAfterExecution tx) (c.clearLockLocked tx.crossShardTxID) := by
  have released : SameFunds ((c.unlockAllSlotsForTx tx.crossShardTxID).clearPendingRwSet
      tx.crossShardTxID) c := sameFunds_of_eq rfl rfl
  rcases clears with kind | kind | kind <;> simp only [cleanupAfterExecution, kind, named, if_false]
  · exact sameFunds_of_eq rfl rfl
  · exact sameFunds_clearAllMetadata c _
  · exact (sameFunds_clearAllMetadata _ _).trans (released.clearLockLocked _)

theorem cleanupAfterExecution_unnamed (c : Chain) {tx : Transaction}
    (unnamed : tx.crossShardTxID = "") : c.cleanupAfterExecution tx = c := by
  simp [cleanupAfterExecution, unnamed]

theorem sameFunds_cleanup_of_keeps (c : Chain) {tx : Transaction} (keeps : ¬ClearsFunds tx) :
    SameFunds (c.cleanupAfterExecution tx) c := by
  unfold ClearsFunds at keeps
  unfold cleanupAfterExecution
  dsimp only
  split
  · exact sameFunds_of_eq rfl rfl
  · split
    · rename_i kind
      exact absurd (Or.inl kind) keeps
    · unfold clearPendingCreditForAddressLocked
      split <;> exact sameFunds_of_eq rfl rfl
    · exact sameFunds_of_eq rfl rfl
    · rename_i kind
      exact absurd (Or.inr (Or.inl kind)) keeps
    · exact sameFunds_of_eq rfl rfl
    · exact sameFunds_of_eq rfl rfl
    · rename_i kind
      exact absurd (Or.inr (Or.inr kind)) keeps
    · exact sameFunds_of_eq rfl rfl

theorem sameFunds_clearLockLocked_of_absent {c : Chain} {txID : TxID}
    (absent : c.locked.get txID = none) : SameFunds (c.clearLockLocked txID) c := by
  have same : c.clearLockLocked txID = c := by
    unfold clearLockLocked
    rw [absent]
  rw [same]
  exact sameFunds_of_eq rfl rfl

/-- Reserving and clearing again restores both readings. -/
theorem sameFunds_reserve_clear {c : Chain} {tx : Transaction}
    (absent : c.locked.get tx.crossShardTxID = none)
    (unlisted : ∀ a, ∀ e ∈ c.entriesAt a, e.txID ≠ tx.crossShardTxID) :
    SameFunds ((c.reserved tx).clearLockLocked tx.crossShardTxID) c := by
  unfold reserved
  split
  · refine ⟨fun x => ?_, fun a => ?_⟩
    · rw [get_locked_clearLockLocked]
      split
      · rename_i own
        rw [own, absent]
      · rename_i other
        simp [Chain.lockFunds, other]
    · rw [entriesAt_clearLockLocked, entriesAt_lockFunds]
      simp only [Chain.lockFunds, FMap.get_set, if_true, Option.map_some, Option.some.injEq]
      have none_own : ∀ e ∈ c.entriesAt a, ¬(decide (e.txID = tx.crossShardTxID) = true) := by
        intro e member
        simpa using unlisted a e member
      by_cases here : a = tx.fromAddr
      · rw [if_pos here.symm, if_pos here, List.eraseP_append_right _ none_own]
        simp
      · rw [if_neg (Ne.symm here), if_neg here]
  · exact sameFunds_clearLockLocked_of_absent absent

/-- A refused `Lock` clears the lock of its ID, with or without its own reservation. -/
theorem funds_refused {c c' : Chain} {evm : EVMState} {tx : Transaction}
    (kind : tx.txType = .lock) (result : c.executeLock evm tx = (c', false)) :
    SameFunds c' (((c.reserveFunds evm tx).getD c).clearLockLocked tx.crossShardTxID) := by
  have cleanup : ∀ c : Chain, SameFunds (c.cleanupAfterFailure tx)
      (c.clearLockLocked tx.crossShardTxID) := fun c => by
    simp only [cleanupAfterFailure, kind]
    have cleared := sameFunds_clearAllMetadata c tx.crossShardTxID
    exact ⟨cleared.locked, cleared.entries⟩
  unfold executeLock at result
  split at result
  · rename_i uncovered
    cases result
    rw [uncovered]
    exact cleanup c
  · rename_i c₁ reserves
    rw [reserves]
    obtain ⟨rfl, -⟩ := reserveFunds_eq_some reserves
    split at result
    · rename_i c₂ err validated
      cases result
      have only : SameFunds c₂ (c.reserved tx) := by
        unfold validateAndLockReadSet at validated
        split at validated
        · rename_i c₃ err' pass
          cases validated
          obtain ⟨⟨table, rfl⟩, -⟩ := lockReadItems_error pass
          exact sameFunds_of_eq rfl rfl
        · cases validated
      -- the second clearing finds nothing
      refine (cleanup _).trans ?_
      refine (sameFunds_clearLockLocked_of_absent ?_).trans (only.clearLockLocked _)
      rw [get_locked_clearLockLocked, if_pos rfl]
    · cases result

theorem reserveFunds_getD (c : Chain) (evm : EVMState) (tx : Transaction) :
    (c.reserveFunds evm tx).getD c = c ∨ (c.reserveFunds evm tx).getD c = c.reserved tx := by
  cases reserves : c.reserveFunds evm tx with
  | none => exact Or.inl rfl
  | some c₁ => exact Or.inr (reserveFunds_eq_some reserves).1

/-- A refused `Lock` leaves the reservations as they were. -/
theorem sameFunds_refused {c c' : Chain} {evm : EVMState} {tx : Transaction}
    (kind : tx.txType = .lock) (absent : c.locked.get tx.crossShardTxID = none)
    (unlisted : ∀ a, ∀ e ∈ c.entriesAt a, e.txID ≠ tx.crossShardTxID)
    (result : c.executeLock evm tx = (c', false)) : SameFunds c' c := by
  refine (funds_refused kind result).trans ?_
  rcases c.reserveFunds_getD evm tx with plain | reserved
  · rw [plain]
    exact sameFunds_clearLockLocked_of_absent absent
  · rw [reserved]
    exact sameFunds_reserve_clear absent unlisted

/-! ## The tables stay in agreement -/

section Indexed

variable {c c' : Chain} {evm : EVMState} {tx : Transaction} (indexed : c.Indexed)
include indexed

theorem Indexed.reserved
    (fresh : 0 < toBigInt tx.value → c.locked.get tx.crossShardTxID = none) :
    (c.reserved tx).Indexed := by
  unfold Chain.reserved
  split
  · rename_i positive
    exact indexed.lockFunds (fresh positive) _ _
  · exact indexed

theorem Indexed.granted
    (fresh : 0 < toBigInt tx.value → c.locked.get tx.crossShardTxID = none)
    (lock : Granted c evm tx c') : c'.Indexed := by
  have funds : SameFunds c' (c.reserved tx) := by
    rw [lock.chain]
    exact sameFunds_of_eq rfl rfl
  exact funds.indexed (indexed.reserved fresh)

theorem Indexed.refused (kind : tx.txType = .lock)
    (fresh : 0 < toBigInt tx.value → c.locked.get tx.crossShardTxID = none)
    (result : c.executeLock evm tx = (c', false)) : c'.Indexed := by
  refine (funds_refused kind result).indexed (Indexed.clearLockLocked ?_ _)
  rcases c.reserveFunds_getD evm tx with plain | reserved
  · rw [plain]
    exact indexed
  · rw [reserved]
    exact indexed.reserved fresh

theorem Indexed.cleanupAfterExecution (tx : Transaction) :
    (c.cleanupAfterExecution tx).Indexed := by
  by_cases clears : ClearsFunds tx
  · by_cases named : tx.crossShardTxID = ""
    · rw [cleanupAfterExecution_unnamed c named]
      exact indexed
    · exact (sameFunds_cleanup_of_clears c clears named).indexed (indexed.clearLockLocked _)
  · exact (sameFunds_cleanup_of_keeps c clears).indexed indexed

end Indexed

end Chain

/-! ## Amounts and balances -/

theorem mustFromBig_of_lt {amount : Int} (nonneg : 0 ≤ amount) (small : amount < 2 ^ 256) :
    ∃ word, mustFromBig amount = some word ∧ (word.toNat : Int) = amount := by
  refine ⟨BitVec.ofInt 256 amount, if_pos (by omega), ?_⟩
  rw [BitVec.toNat_ofInt]
  omega

theorem mustFromBig_toNat {amount : Int} {word : U256} (nonneg : 0 ≤ amount)
    (reads : mustFromBig amount = some word) : (word.toNat : Int) = amount := by
  unfold mustFromBig at reads
  split at reads
  · rename_i small
    cases reads
    rw [BitVec.toNat_ofInt]
    omega
  · cases reads

theorem canDebit_iff {e : EVMState} {a : Address} {amount reserved : Int} :
    e.canDebit a amount reserved = true ↔ amount + reserved ≤ (e.balance a).toNat := by
  unfold EVMState.canDebit
  rw [decide_eq_true_iff]
  omega

/-- A machine whose calls do nothing but move their value. -/
def transferVM : VM where
  call e caller callee _ gas value :=
    if e.canTransfer caller value then .ok (e.transfer caller callee value)
    else .error ("insufficient balance for transfer", gas)

theorem executeLocalTx_transferVM {e e' : EVMState} {tx : Transaction}
    (ran : e.executeLocalTx transferVM tx = .ok e') :
    ∃ amount, mustFromBig (toBigInt tx.value) = some amount ∧
      e.canTransfer tx.fromAddr amount = true ∧ e' = e.transfer tx.fromAddr tx.toAddr amount := by
  unfold EVMState.executeLocalTx at ran
  split at ran
  · cases ran
  · rename_i amount reads
    refine ⟨amount, reads, ?_⟩
    dsimp only at ran
    split at ran
    · simp only [transferVM] at ran
      cases covered : e.canTransfer tx.fromAddr amount with
      | true =>
          simp only [covered, if_true] at ran
          cases ran
          exact ⟨rfl, rfl⟩
      | false => simp [covered] at ran
    · split at ran
      · rename_i covered
        cases ran
        exact ⟨covered, rfl⟩
      · cases ran

theorem balance_transfer_of_ne {e : EVMState} {sender recipient a : Address} (amount : U256)
    (notSender : a ≠ sender) (notRecipient : a ≠ recipient) :
    (e.transfer sender recipient amount).balance a = e.balance a := by
  simp [EVMState.transfer, notSender, notRecipient]

theorem balance_transfer_self {e : EVMState} {a : Address} (amount : U256) (x : Address) :
    (e.transfer a a amount).balance x = e.balance x := by
  by_cases same : x = a
  · subst same
    rw [EVMState.transfer, EVMState.balance_addBalance, if_pos rfl, EVMState.balance_subBalance,
      if_pos rfl, BitVec.sub_add_cancel]
  · exact balance_transfer_of_ne amount same same

theorem balance_transfer_sender {e : EVMState} {sender recipient : Address} {amount : U256}
    (different : sender ≠ recipient) (covered : e.canTransfer sender amount = true) :
    ((e.transfer sender recipient amount).balance sender).toNat + amount.toNat =
      (e.balance sender).toNat := by
  have le : amount ≤ e.balance sender := of_decide_eq_true covered
  rw [EVMState.transfer, EVMState.balance_addBalance, if_neg different,
    EVMState.balance_subBalance, if_pos rfl, BitVec.toNat_sub_of_le le]
  have := BitVec.le_def.1 le
  omega

/-! ## Coverage -/

/-- Every reservation is backed by balance, and the debit about to execute succeeds. -/
def Covered (n : Node) : Prop :=
  (∀ a, n.chain.getLockedAmountForAddress a ≤ (n.evm.balance a).toNat) ∧
  ∀ tx rest successful, n.work = some ⟨tx :: rest, successful⟩ → tx.txType = .crossDebit →
    ∃ evm, n.evm.debit tx.fromAddr (toBigInt tx.value) = .ok evm

/-- A local transfer that is about to execute would pass the check of the `Lock` branch. -/
def LocalCovered (n : Node) : Event → Prop
  | .execute tx =>
      tx.txType = .localTx → n.chain.checkLocalTxLockConflict tx = none →
      tx.fromAddr ≠ tx.toAddr → ∀ amount, mustFromBig (toBigInt tx.value) = some amount →
      n.evm.canTransfer tx.fromAddr amount = true →
      n.evm.canDebit tx.fromAddr amount.toNat (n.chain.getLockedAmountForAddress tx.fromAddr) = true
  | _ => True

/-- The balance of every recipient has room for the amount that is about to arrive. -/
def NoOverflow (n : Node) : Event → Prop
  | .execute tx =>
      ∀ amount, mustFromBig (toBigInt tx.value) = some amount →
      tx.txType = .localTx ∧ n.evm.canTransfer tx.fromAddr amount = true ∨
        tx.txType = .crossCredit →
      (n.evm.balance tx.toAddr).toNat + amount.toNat < 2 ^ 256
  | _ => True

/-- The inductive invariant behind `Covered`. -/
structure Reserving (n : Node) : Prop where
  indexed : n.chain.Indexed
  covered : ∀ a, n.chain.getLockedAmountForAddress a ≤ (n.evm.balance a).toNat
  debits : ∀ tx ∈ n.outstanding, tx.txType = .crossDebit →
    n.chain.locked.get tx.crossShardTxID = some ⟨tx.fromAddr, toBigInt tx.value⟩

theorem reserving_start (shardID : Int) (evm : EVMState) :
    Reserving (Node.start shardID evm) where
  indexed := by constructor <;> simp [Node.start, Chain.newChain, Chain.entriesAt]
  covered a := by
    simp [Node.start, Chain.newChain, Chain.getLockedAmountForAddress, Chain.entriesAt]
  debits tx waiting := by simp [Node.start, Chain.newChain, Node.outstanding] at waiting

section Step

variable {shardID : Int} {es : List Event} {e : Event} {n n' : Node}

/-- A reservation is at most what its address has reserved. -/
theorem Reserving.le_amount (reserving : Reserving n) (traced : Traced shardID es n) {txID : TxID}
    {lock : LockedFunds} (found : n.chain.locked.get txID = some lock) :
    0 < lock.amount ∧ lock.amount ≤ n.chain.getLockedAmountForAddress lock.address := by
  have positive : ∀ x l, n.chain.locked.get x = some l → 0 < l.amount := by
    intro x l record
    obtain ⟨t, -, -, -, pos, rfl, -⟩ := traced.tables.funds x l record
    exact pos
  refine ⟨positive txID lock found, ?_⟩
  rw [Chain.getLockedAmountForAddress_eq_sum]
  refine List.single_le_sum (fun amount listed => ?_) _
    (List.mem_map_of_mem (reserving.indexed.lock txID lock found))
  obtain ⟨entry, member, rfl⟩ := List.mem_map.1 listed
  exact (positive _ _ (reserving.indexed.entry _ entry member)).le

/-- A debit in the queue succeeds. -/
theorem Reserving.debit_ok (reserving : Reserving n) (traced : Traced shardID es n)
    {tx : Transaction} (waiting : tx ∈ n.outstanding) (kind : tx.txType = .crossDebit) :
    ∃ evm, n.evm.debit tx.fromAddr (toBigInt tx.value) = .ok evm := by
  obtain ⟨pos, le⟩ := reserving.le_amount traced (reserving.debits tx waiting kind)
  have backed := reserving.covered tx.fromAddr
  have bound := (n.evm.balance tx.fromAddr).isLt
  simp only at pos le
  obtain ⟨word, reads, value⟩ := mustFromBig_of_lt pos.le (by omega)
  refine ⟨n.evm.subBalance tx.fromAddr word, ?_⟩
  have enough : ¬n.evm.balance tx.fromAddr < word := by
    rw [BitVec.lt_def]
    omega
  simp only [EVMState.debit, reads, enough, if_false]

theorem Reserving.covers (reserving : Reserving n) (traced : Traced shardID es n) : Covered n := by
  refine ⟨reserving.covered, fun tx rest successful busy kind => ?_⟩
  refine reserving.debit_ok traced ?_ kind
  rw [Node.outstanding_of_busy busy]
  exact List.mem_cons_self

/-- Only a commit queues debits, and it reads them off the reservations. -/
theorem debit_of_mem_added {vm : VM} (taken : Taken vm n e n') {tx : Transaction}
    (member : tx ∈ added n e) (debit : tx.txType = .crossDebit) :
    n.chain.locked.get tx.crossShardTxID = some ⟨tx.fromAddr, toBigInt tx.value⟩ := by
  obtain ⟨txID, -, -, effect⟩ := effect_of_mem_added taken member (by rw [debit]; rfl)
  rcases mem_commitTxs.1 effect with ⟨lock, found, rfl⟩ | ⟨_, -, _, -, rfl⟩ | ⟨_, -, -, rfl⟩ |
    ⟨_, -, -, rfl⟩
  · exact found
  all_goals cases debit

/-- Events that leave the reservations alone and lower no balance. -/
theorem Reserving.keep {vm : VM} (reserving : Reserving n) (taken : Taken vm n e n')
    (ok : e ≠ .commitError) (funds : Chain.SameFunds n'.chain n.chain)
    (balances : n'.evm = n.evm) : Reserving n' where
  indexed := funds.indexed reserving.indexed
  covered a := by
    rw [funds.amount, balances]
    exact reserving.covered a
  debits tx member debit := by
    rw [funds.locked]
    rcases taken.mem_outstanding ok member with old | new
    · exact reserving.debits tx old debit
    · exact debit_of_mem_added taken new debit

/-- A granted `Lock` reserves what the balance covers. -/
theorem Reserving.granted (reserving : Reserving n) (traced : Traced shardID es n)
    (ok : Disciplined es) {tx : Transaction} {rest successful : List Transaction}
    (busy : n.work = some ⟨tx :: rest, successful⟩) (kind : tx.txType = .lock) {chain : Chain}
    (lock : Chain.Granted n.chain n.evm tx chain) :
    Reserving ⟨chain, n.evm, some ⟨rest, successful ++ [tx]⟩⟩ := by
  have waiting : tx ∈ n.outstanding := by simp [Node.outstanding_of_busy busy]
  have absent := (traced.lock_fresh ok waiting kind).1
  have funds : Chain.SameFunds chain (n.chain.reserved tx) := by
    rw [lock.chain]
    exact Chain.sameFunds_of_eq rfl rfl
  have reserved : (n.chain.reserved tx).Indexed ∧
      ∀ a, (n.chain.reserved tx).getLockedAmountForAddress a ≤ (n.evm.balance a).toNat := by
    unfold Chain.reserved
    split
    · rename_i positive
      refine ⟨reserving.indexed.lockFunds absent _ _, fun a => ?_⟩
      rw [Chain.amount_lockFunds]
      have covered := canDebit_iff.1 (lock.covered positive)
      have before := reserving.covered a
      split
      · rename_i here
        rw [here] at before ⊢
        omega
      · omega
    · exact ⟨reserving.indexed, reserving.covered⟩
  refine ⟨funds.indexed reserved.1, fun a => ?_, fun tx' member debit => ?_⟩
  · rw [funds.amount]
    exact reserved.2 a
  · -- debits come before every `Lock`
    have le := traced.sorted.priority_le busy member
    simp [kind, debit, TxType.priority] at le

/-- What runs without touching a reservation may only raise balances. -/
theorem Reserving.applied_keeps (reserving : Reserving n) {tx : Transaction}
    {rest successful : List Transaction} (busy : n.work = some ⟨tx :: rest, successful⟩)
    (keeps : ¬Chain.ClearsFunds tx) {evm : EVMState}
    (balances : ∀ a, n.chain.getLockedAmountForAddress a ≤ (evm.balance a).toNat) :
    Reserving ⟨n.chain.cleanupAfterExecution tx, evm, some ⟨rest, successful ++ [tx]⟩⟩ := by
  have funds := Chain.sameFunds_cleanup_of_keeps n.chain keeps
  refine ⟨funds.indexed reserving.indexed, fun a => ?_, fun tx' member debit => ?_⟩
  · rw [funds.amount]
    exact balances a
  · rw [funds.locked]
    refine reserving.debits tx' ?_ debit
    rw [Node.outstanding_of_busy busy]
    exact List.mem_cons_of_mem _ member

/-- Clearing a reservation is safe when the balances still cover the rest. -/
theorem Reserving.applied_clears (reserving : Reserving n) {tx : Transaction}
    {rest successful : List Transaction} (clears : Chain.ClearsFunds tx)
    (named : tx.crossShardTxID ≠ "") {evm : EVMState}
    (balances : ∀ a, (n.chain.clearLockLocked tx.crossShardTxID).getLockedAmountForAddress a ≤
      (evm.balance a).toNat)
    (debits : ∀ tx' ∈ rest, tx'.txType = .crossDebit → tx' ∈ n.outstanding ∧
      tx'.crossShardTxID ≠ tx.crossShardTxID) :
    Reserving ⟨n.chain.cleanupAfterExecution tx, evm, some ⟨rest, successful ++ [tx]⟩⟩ := by
  have funds := Chain.sameFunds_cleanup_of_clears n.chain clears named
  refine ⟨funds.indexed (reserving.indexed.clearLockLocked _), fun a => ?_, fun tx' member debit => ?_⟩
  · rw [funds.amount]
    exact balances a
  · obtain ⟨waiting, other⟩ := debits tx' member debit
    rw [funds.locked, Chain.get_locked_clearLockLocked, if_neg other]
    exact reserving.debits tx' waiting debit

/-- Clearing a reservation never raises what an address has reserved. -/
theorem Reserving.amount_clear_le (reserving : Reserving n) (traced : Traced shardID es n)
    (txID : TxID) (a : Address) :
    (n.chain.clearLockLocked txID).getLockedAmountForAddress a ≤
      n.chain.getLockedAmountForAddress a := by
  cases found : n.chain.locked.get txID with
  | none => rw [(Chain.sameFunds_clearLockLocked_of_absent found).amount]
  | some lock =>
      have positive := (reserving.le_amount traced found).1
      rw [reserving.indexed.amount_clearLockLocked found]
      split <;> omega

/-- Cleaning up after a decision moves no funds. -/
theorem Reserving.applied_cleanup (reserving : Reserving n) (traced : Traced shardID es n)
    {tx : Transaction} {rest successful : List Transaction}
    (busy : n.work = some ⟨tx :: rest, successful⟩)
    (kind : tx.txType = .crossAbort ∨ tx.txType = .unlock) :
    Reserving ⟨n.chain.cleanupAfterExecution tx, n.evm, some ⟨rest, successful ++ [tx]⟩⟩ := by
  have late : ∀ tx' ∈ rest, tx'.txType ≠ .crossDebit := by
    intro tx' member debit
    have le := traced.sorted.priority_le busy member
    rcases kind with kind | kind <;> simp [kind, debit, TxType.priority] at le
  by_cases named : tx.crossShardTxID = ""
  · rw [n.chain.cleanupAfterExecution_unnamed named]
    exact ⟨reserving.indexed, reserving.covered,
      fun tx' member debit => absurd debit (late tx' member)⟩
  · refine reserving.applied_clears (Or.inr kind) named (fun a => ?_)
      fun tx' member debit => absurd debit (late tx' member)
    exact (reserving.amount_clear_le traced _ a).trans (reserving.covered a)

/-- A debit spends exactly the reservation it clears. -/
theorem Reserving.applied_debit (reserving : Reserving n) (traced : Traced shardID es n)
    {tx : Transaction} {rest successful : List Transaction}
    (busy : n.work = some ⟨tx :: rest, successful⟩) (kind : tx.txType = .crossDebit)
    (named : tx.crossShardTxID ≠ "") {evm : EVMState}
    (ran : n.evm.debit tx.fromAddr (toBigInt tx.value) = .ok evm) :
    Reserving ⟨n.chain.cleanupAfterExecution tx, evm, some ⟨rest, successful ++ [tx]⟩⟩ := by
  have waiting := Node.outstanding_of_busy busy
  have found := reserving.debits tx (by simp [waiting]) kind
  have positive := (reserving.le_amount traced found).1
  refine reserving.applied_clears (Or.inl kind) named (fun a => ?_) fun tx' member debit => ?_
  · unfold EVMState.debit at ran
    split at ran
    · cases ran
    · rename_i word reads
      split at ran
      · cases ran
      · rename_i enough
        cases ran
        have value := mustFromBig_toNat positive.le reads
        have before := reserving.covered a
        rw [reserving.indexed.amount_clearLockLocked found]
        by_cases here : a = tx.fromAddr
        · subst here
          have le : word ≤ n.evm.balance tx.fromAddr := BitVec.not_lt.1 enough
          rw [if_pos rfl, EVMState.balance_subBalance, if_pos rfl, BitVec.toNat_sub_of_le le]
          have := BitVec.le_def.1 le
          simp only at value ⊢
          omega
        · rw [if_neg here, EVMState.balance_subBalance, if_neg here]
          omega
  · refine ⟨by simp [waiting, member], fun same => ?_⟩
    refine traced.effect_once busy member (by simp [kind, TxType.priority]) ?_
    rw [label, label, debit, kind, same]

theorem transfer_covered (reserving : Reserving n) {tx : Transaction} {amount : U256}
    (covered : tx.fromAddr ≠ tx.toAddr → n.evm.canDebit tx.fromAddr amount.toNat
      (n.chain.getLockedAmountForAddress tx.fromAddr) = true)
    (enough : n.evm.canTransfer tx.fromAddr amount = true)
    (room : (n.evm.balance tx.toAddr).toNat + amount.toNat < 2 ^ 256) (a : Address) :
    n.chain.getLockedAmountForAddress a ≤
      ((n.evm.transfer tx.fromAddr tx.toAddr amount).balance a).toNat := by
  have before := reserving.covered a
  by_cases same : tx.fromAddr = tx.toAddr
  · rw [same, balance_transfer_self]
    exact before
  · by_cases sender : a = tx.fromAddr
    · have spent := balance_transfer_sender same enough
      have check := canDebit_iff.1 (covered same)
      rw [sender]
      omega
    · by_cases recipient : a = tx.toAddr
      · have grows : ((n.evm.transfer tx.fromAddr tx.toAddr amount).balance tx.toAddr).toNat =
            (n.evm.balance tx.toAddr).toNat + amount.toNat := by
          rw [EVMState.transfer, EVMState.balance_addBalance, if_pos rfl,
            EVMState.balance_subBalance, if_neg (Ne.symm same), BitVec.toNat_add_of_lt room]
        rw [recipient] at before ⊢
        omega
      · rw [balance_transfer_of_ne amount sender recipient]
        exact before

/-- **Executing anything keeps the reservations covered.** -/
theorem Reserving.applied (reserving : Reserving n) (traced : Traced shardID es n)
    (named : ∀ t ∈ ordered es, t.id ≠ "") {tx : Transaction} {rest successful : List Transaction}
    (busy : n.work = some ⟨tx :: rest, successful⟩) (kind : tx.txType ≠ .lock)
    (free : n.chain.checkLocalTxLockConflict tx = none) {evm : EVMState}
    (ran : n.evm.executeTx transferVM tx = .ok evm) (bounded : NoOverflow n (.execute tx))
    (checked : LocalCovered n (.execute tx)) :
    Reserving ⟨n.chain.cleanupAfterExecution tx, evm, some ⟨rest, successful ++ [tx]⟩⟩ := by
  have waiting : tx ∈ ledger es n := by simp [ledger, Node.outstanding_of_busy busy]
  cases traced.queued tx waiting with
  | submission _ kind unnamed =>
      refine reserving.applied_keeps busy (by simp [Chain.ClearsFunds, kind]) ?_
      simp only [EVMState.executeTx, kind] at ran
      obtain ⟨amount, reads, enough, rfl⟩ := executeLocalTx_transferVM ran
      exact transfer_covered reserving
        (fun different => checked kind free different amount reads enough) enough
        (bounded amount reads (Or.inl ⟨kind, enough⟩))
  | lock t known involved => exact absurd rfl kind
  | effect t known committed _ caused =>
      have id := caused.id_eq
      cases caused with
      | debit source => exact reserving.applied_debit traced busy rfl (named t known) ran
      | credit home =>
          refine reserving.applied_keeps busy (by simp [Chain.ClearsFunds, creditTx, crossTx]) ?_
          intro a
          have before := reserving.covered a
          change n.evm.credit t.toAddr (toBigInt t.value) = .ok evm at ran
          unfold EVMState.credit at ran
          split at ran
          · cases ran
          · rename_i amount reads
            cases ran
            by_cases here : a = t.toAddr
            · have room : (n.evm.balance t.toAddr).toNat + amount.toNat < 2 ^ 256 :=
                bounded amount reads (Or.inr rfl)
              rw [EVMState.balance_addBalance, if_pos here, BitVec.toNat_add_of_lt room]
              rw [here] at before ⊢
              omega
            · rw [EVMState.balance_addBalance, if_neg here]
              exact before
      | writeSet =>
          cases ran
          refine reserving.applied_keeps busy (by simp [Chain.ClearsFunds, Chain.writeSetTx, crossTx]) ?_
          rw [(n.evm.applyWriteSet_frame _).1]
          exact reserving.covered
      | finalize =>
          cases ran
          refine reserving.applied_keeps busy (by simp [Chain.ClearsFunds, Chain.finalizeTx, crossTx]) ?_
          rw [(n.evm.applyWriteSet_frame _).1]
          exact reserving.covered
  | unlock txID committed decided =>
      cases ran
      exact reserving.applied_cleanup traced busy (Or.inr rfl)
  | abort txID aborted =>
      cases ran
      exact reserving.applied_cleanup traced busy (Or.inl rfl)

theorem Reserving.step (reserving : Reserving n) (traced : Traced shardID es n)
    (ok : Disciplined (es ++ [e])) (named : ∀ t ∈ ordered es, t.id ≠ "")
    (taken : Taken transferVM n e n') (bounded : NoOverflow n e) (checked : LocalCovered n e) :
    Reserving n' := by
  have commits : e ≠ .commitError := fun same => ok.commits (by simp [same])
  have keep := fun funds balances => reserving.keep taken commits funds balances
  cases taken with
  | ordered tx idle involved =>
      refine keep ?_ rfl
      show Chain.SameFunds ((n.chain.noteOrder tx).addTx _) n.chain
      rw [Chain.noteOrder_eq]
      exact Chain.sameFunds_of_eq rfl rfl
  | granted tx rest successful busy kind chain lock =>
      exact reserving.granted traced ok.of_append busy kind lock
  | refused tx rest successful busy kind chain lock result =>
      have waiting : tx ∈ n.outstanding := by simp [Node.outstanding_of_busy busy]
      have absent := (traced.lock_fresh ok.of_append waiting kind).1
      exact keep (Chain.sameFunds_refused kind absent (reserving.indexed.unlisted absent) result) rfl
  | applied tx rest successful busy kind free evm ran =>
      exact reserving.applied traced named busy kind free ran bounded checked
  | _ => exact keep (Chain.sameFunds_of_eq rfl rfl) rfl

end Step

/-! ## Whole runs -/

theorem executeLocalTx_of_canTransfer {e : EVMState} {tx : Transaction} {amount : U256}
    (reads : mustFromBig (toBigInt tx.value) = some amount)
    (enough : e.canTransfer tx.fromAddr amount = true) :
    e.executeLocalTx transferVM tx = .ok (e.transfer tx.fromAddr tx.toAddr amount) := by
  unfold EVMState.executeLocalTx
  simp only [reads, transferVM, enough, if_true]
  split <;> rfl

/-- When the state after a local transfer is covered, the transfer was. -/
theorem localCovered_of_covered {n n' : Node} {e : Event} (taken : Taken transferVM n e n')
    (covered : Covered n') : LocalCovered n e := by
  cases e with
  | execute tx =>
      intro kind free different amount reads enough
      have ran := executeLocalTx_of_canTransfer reads enough
      have exec : n.evm.executeTx transferVM tx = n.evm.executeLocalTx transferVM tx := by
        simp only [EVMState.executeTx, kind]
      cases taken with
      | skipped _ rest successful busy reason =>
          rcases reason with conflict | ⟨-, msg, failure⟩
          · simp [free] at conflict
          · rw [exec, ran] at failure
            cases failure
      | granted _ rest successful busy kind' chain lock => simp [kind] at kind'
      | refused _ rest successful busy kind' chain lock result => simp [kind] at kind'
      | applied _ rest successful busy kind' free' evm ok =>
          rw [exec, ran] at ok
          cases ok
          have left := covered.1 tx.fromAddr
          rw [(Chain.sameFunds_cleanup_of_keeps n.chain
            (by simp [Chain.ClearsFunds, kind])).amount] at left
          have spent := balance_transfer_sender different enough
          rw [canDebit_iff]
          simp only at left
          omega
  | _ => trivial

/-- **Coverage.**  In a run without wrapped balances, every state is covered exactly when
every local transfer that is executed would pass, at that moment, the check that the `Lock`
branch makes. -/
theorem reservations_covered_iff (shardID : Int) (evm : EVMState) (es : List Event) (n : Node)
    (ok : Disciplined es) (named : ∀ t ∈ ordered es, t.id ≠ "")
    (reached : run (step transferVM) (Node.start shardID evm) es = some n)
    (bounded : Along (step transferVM) NoOverflow (Node.start shardID evm) es) :
    (∀ pre post m, es = pre ++ post →
      run (step transferVM) (Node.start shardID evm) pre = some m → Covered m) ↔
    Along (step transferVM) LocalCovered (Node.start shardID evm) es := by
  constructor
  · intro covered
    refine along_iff.2 fun pre e post m split before => ?_
    obtain ⟨m'', stepped, -⟩ := run_cons_eq_some.1 (run_rest before (split ▸ reached))
    refine localCovered_of_covered (taken_of_step stepped) (covered (pre ++ [e]) post m'' ?_ ?_)
    · rw [split, List.append_assoc]
      rfl
    · exact run_concat_eq_some.2 ⟨m, before, stepped⟩
  · rintro checked pre post m rfl before
    have inv : Traced shardID pre m ∧ Reserving m :=
      run_invariant
        (fun es => Disciplined es ∧ (∀ t ∈ ordered es, t.id ≠ "") ∧
          Along (step transferVM) NoOverflow (Node.start shardID evm) es ∧
          Along (step transferVM) LocalCovered (Node.start shardID evm) es)
        (fun es e all => ⟨all.1.of_append,
          fun t member => all.2.1 t (mem_ordered_append member [e]),
          all.2.2.1.of_append, all.2.2.2.of_append⟩)
        (fun es n => Traced shardID es n ∧ Reserving n)
        ⟨traced_start shardID evm, reserving_start shardID evm⟩
        (fun es m e m' all before inv stepped =>
          have taken := taken_of_step stepped
          ⟨inv.1.step taken all.1, inv.2.step inv.1 all.1
            (fun t member => all.2.1 t (mem_ordered_append member [e])) taken
            (all.2.2.1.last before) (all.2.2.2.last before)⟩)
        pre m
        ⟨ok.of_append, fun t member => named t (mem_ordered_append member post),
          bounded.of_append, checked.of_append⟩ before
    exact inv.2.covers inv.1

/-! ## A local transfer that spends reserved funds -/

namespace FundLocksPole

def alice : Address := 0x100
def bob : Address := 0x200
def carol : Address := 0x301

def funded : EVMState := ⟨fun a => if a = alice then 100 else 0, fun _ _ => 0, fun _ => []⟩

/-- Alice on shard 0 sends 100 to Carol on shard 1. -/
def payCarol : CrossShardTx where
  id := "tx-1"
  fromShard := 0
  fromAddr := alice
  toAddr := carol
  value := some 100
  rwSet := [⟨carol, ⟨1⟩, [], []⟩]

def orderBlock : OrchestratorShardBlock := ⟨1, ∅, [payCarol]⟩
def commitBlock : OrchestratorShardBlock := ⟨2, (∅ : AList _).insert "tx-1" true, []⟩

/-- First Alice submits a local transfer of the same 100 to Bob. -/
def submitted : Server.SubmitResponse × Server :=
  (Server.fresh 0 funded).handleTxSubmit (fun _ _ _ _ _ _ => .error "") "" ⟨alice, bob, "100", [], 0⟩

def firstBlock : Option Produced :=
  (submitted.2.chain.processOrchestratorBlock orderBlock).produceBlock transferVM funded (some 0)

def secondBlock : Option Produced :=
  firstBlock.bind fun p =>
    (p.chain.processOrchestratorBlock commitBlock).produceBlock transferVM p.evm (some 0)

end FundLocksPole

open FundLocksPole in
/-- The transfer to Bob passes its check and is queued; the next block first grants the
`Lock` and votes YES, then runs the transfer.  The reservation of 100 is left with a balance
of 0, and the block after the commit holds no debit. -/
theorem local_transfer_spends_reserved_funds :
    submitted.1 = .queued ∧
    firstBlock.map (fun p => (p.block.map fun b => b.tpcPrepare.get "tx-1",
      p.chain.getLockedAmountForAddress alice, p.evm.balance alice)) =
        some (some (some true), 100, 0) ∧
    secondBlock.map (fun p => p.block.map fun b => b.txOrdering.map Transaction.txType) =
      some (some [.unlock]) := by
  decide +kernel

namespace FundLocksPole

/-- The same payment, of 60. -/
def payCarolLess : CrossShardTx := { payCarol with value := some 60 }

def payBob : Transaction := { fromAddr := alice, toAddr := bob, value := some 40 }

/-- A block that grants the `Lock` of 60 and then lets Alice spend the other 40. -/
def sharedBalance : List Event :=
  [.submit payBob, .order payCarolLess, .beginBlock, .execute (lockTx 0 payCarolLess),
    .execute payBob, .commitBlock 0]

end FundLocksPole

open FundLocksPole in
/-- Lock and transfer fit into one balance: every state of this run is covered. -/
theorem sharedBalance_covered :
    ∃ n, run (step transferVM) (Node.start 0 funded) sharedBalance = some n ∧
      n.chain.getLockedAmountForAddress alice = 60 ∧ n.evm.balance alice = 60 ∧
      ∀ pre post m, sharedBalance = pre ++ post →
        run (step transferVM) (Node.start 0 funded) pre = some m → Covered m := by
  refine ⟨_, rfl, by decide +kernel, by decide +kernel, ?_⟩
  refine (reservations_covered_iff 0 funded sharedBalance _ ⟨by decide, by decide⟩ (by decide)
    rfl ?_).2 ?_
  · refine .cons trivial rfl (.cons trivial rfl (.cons trivial rfl (.cons ?_ rfl (.cons ?_ rfl
      (.cons trivial rfl trivial)))))
    · rintro amount - (⟨kind, -⟩ | kind) <;> cases kind
    · rintro amount reads -
      cases reads
      decide +kernel
  · refine .cons trivial rfl (.cons trivial rfl (.cons trivial rfl (.cons ?_ rfl (.cons ?_ rfl
      (.cons trivial rfl trivial)))))
    · intro kind
      cases kind
    · rintro - - - amount reads -
      cases reads
      decide +kernel

end CrossShard.Shard
