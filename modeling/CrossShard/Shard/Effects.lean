/-
# Shard.Effects -- what the transactions of a decision do, in closed form

Once a cross-shard transaction is decided, a shard executes debits, credits, write sets,
finalizations, unlocks and aborts for it.  None of them runs the virtual machine, and only
an uncovered debit fails: executing them is folding their effects over the state and their
clean-up over the tables.

* `executeAll_settling`: a list in which no transaction fails executes to its two folds.
* `Solvent`: the debits are covered at every address, and the credits fit; then no order of
  the list fails.
* `foldl_effect_perm`, `foldl_cleanup_perm`: both folds depend on the list only up to order,
  if no two transactions write different values to one slot.
-/
import Mathlib.Data.BitVec
import CrossShard.Shard.ExactlyOnce

namespace CrossShard.Shard

set_option autoImplicit false

open CrossShard.Library CrossShard.Protocol

/-! ## Effects on the state -/

/-- The amount as the state database takes it. -/
def Transaction.amount (tx : Transaction) : U256 := BitVec.ofInt 256 (toBigInt tx.value)

/-- A transaction of a decision. -/
def Settling (tx : Transaction) : Prop :=
  IsEffect tx ∨ tx.txType = .unlock ∨ tx.txType = .crossAbort

/-- The effect of a transaction of a decision that does not fail. -/
def EVMState.effect (e : EVMState) (tx : Transaction) : EVMState :=
  match tx.txType with
  | .crossDebit => e.subBalance tx.fromAddr (Transaction.amount tx)
  | .crossCredit => e.addBalance tx.toAddr (Transaction.amount tx)
  | .crossWriteSet => e.applyWriteSet tx.rwSet
  | .finalize => e.applyWriteSet tx.rwSet
  | _ => e

/-- No transaction of the list fails: amounts fit 256 bits, and each debit is covered when its
turn comes. -/
def Pays : List Transaction → EVMState → Prop
  | [], _ => True
  | tx :: txs, e => (toBigInt tx.value).natAbs < 2 ^ 256 ∧
      (tx.txType = .crossDebit → Transaction.amount tx ≤ e.balance tx.fromAddr) ∧
      Pays txs (e.effect tx)

theorem pays_append {txs txs' : List Transaction} {e : EVMState} :
    Pays (txs ++ txs') e ↔ Pays txs e ∧ Pays txs' (txs.foldl EVMState.effect e) := by
  induction txs generalizing e with
  | nil => simp [Pays]
  | cons tx txs ih => simp only [List.cons_append, Pays, List.foldl_cons, ih, and_assoc]

/-- Without a debit nothing has to be covered. -/
theorem pays_of_no_debit {txs : List Transaction} {e : EVMState}
    (fits : ∀ tx ∈ txs, (toBigInt tx.value).natAbs < 2 ^ 256)
    (free : ∀ tx ∈ txs, tx.txType ≠ .crossDebit) : Pays txs e := by
  induction txs generalizing e with
  | nil => trivial
  | cons tx txs ih =>
      refine ⟨fits tx List.mem_cons_self, fun debit => absurd debit (free tx List.mem_cons_self), ?_⟩
      exact ih (fun tx' later => fits tx' (List.mem_cons_of_mem _ later))
        fun tx' later => free tx' (List.mem_cons_of_mem _ later)

theorem executeTx_settling {vm : VM} {e : EVMState} {tx : Transaction} (settling : Settling tx)
    (fits : (toBigInt tx.value).natAbs < 2 ^ 256)
    (covered : tx.txType = .crossDebit → Transaction.amount tx ≤ e.balance tx.fromAddr) :
    e.executeTx vm tx = .ok (e.effect tx) := by
  have amount : mustFromBig (toBigInt tx.value) = some (Transaction.amount tx) := if_pos fits
  rcases settling with (kind | kind | kind | kind) | kind | kind
  · have enough : ¬e.balance tx.fromAddr < Transaction.amount tx := BitVec.not_lt.2 (covered kind)
    simp only [EVMState.executeTx, EVMState.effect, EVMState.debit, kind, amount, if_neg enough]
  · simp only [EVMState.executeTx, EVMState.effect, EVMState.credit, kind, amount]
  all_goals simp only [EVMState.executeTx, EVMState.effect, kind]

theorem executeOne_settling {vm : VM} {s : BlockState} {tx : Transaction} (settling : Settling tx)
    (fits : (toBigInt tx.value).natAbs < 2 ^ 256)
    (covered : tx.txType = .crossDebit → Transaction.amount tx ≤ s.evm.balance tx.fromAddr) :
    s.executeOne vm tx =
      some ⟨s.chain.cleanupAfterExecution tx, s.evm.effect tx, s.successfulTxs ++ [tx]⟩ := by
  have foreign : tx.txType ≠ .localTx ∧ tx.txType ≠ .lock := by
    rcases settling with (kind | kind | kind | kind) | kind | kind <;> simp [kind]
  have free : s.chain.checkLocalTxLockConflict tx = none := by
    simp [Chain.checkLocalTxLockConflict, foreign.1]
  simp only [BlockState.executeOne, free, foreign.2, executeTx_settling settling fits covered,
    Option.isSome_none, Bool.false_eq_true, if_false]

/-- **A list that pays executes to its folds.** -/
theorem executeAll_settling {vm : VM} {txs : List Transaction} :
    ∀ {s : BlockState}, (∀ tx ∈ txs, Settling tx) → Pays txs s.evm →
      BlockState.executeAll vm s txs =
        some ⟨txs.foldl Chain.cleanupAfterExecution s.chain, txs.foldl EVMState.effect s.evm,
          s.successfulTxs ++ txs⟩ := by
  induction txs with
  | nil =>
      intro s _ _
      rw [List.append_nil]
      rfl
  | cons tx txs ih =>
      intro s settling pays
      have head := settling tx List.mem_cons_self
      rw [BlockState.executeAll, executeOne_settling head pays.1 pays.2.1, Option.bind_some,
        ih (fun tx' later => settling tx' (List.mem_cons_of_mem _ later)) pays.2.2]
      simp only [List.foldl_cons, List.append_assoc, List.singleton_append]

/-! ## Paying in every order -/

def debitAt (a : Address) (tx : Transaction) : Nat :=
  if tx.txType = .crossDebit ∧ tx.fromAddr = a then (Transaction.amount tx).toNat else 0

def creditAt (a : Address) (tx : Transaction) : Nat :=
  if tx.txType = .crossCredit ∧ tx.toAddr = a then (Transaction.amount tx).toNat else 0

/-- Amounts fit 256 bits, the debits are covered without the credits, and the credits fit
without the debits. -/
structure Solvent (txs : List Transaction) (e : EVMState) : Prop where
  fits : ∀ tx ∈ txs, (toBigInt tx.value).natAbs < 2 ^ 256
  covered : ∀ a, (txs.map (debitAt a)).sum ≤ (e.balance a).toNat
  room : ∀ a, (e.balance a).toNat + (txs.map (creditAt a)).sum < 2 ^ 256

section Solvent

variable {e : EVMState} {tx : Transaction} {txs : List Transaction}

/-- A debit or a credit changes one balance, without wrapping around. -/
theorem Solvent.toNat_balance (solvent : Solvent (tx :: txs) e) (settling : Settling tx)
    (a : Address) :
    ((e.effect tx).balance a).toNat + debitAt a tx = (e.balance a).toNat + creditAt a tx := by
  have covered := solvent.covered a
  have room := solvent.room a
  rw [List.map_cons, List.sum_cons] at covered room
  rcases settling with (kind | kind | kind | kind) | kind | kind
  · simp only [EVMState.effect, kind, EVMState.balance_subBalance, creditAt, reduceCtorEq, false_and,
      if_false]
    by_cases own : a = tx.fromAddr
    · subst own
      have owed : debitAt tx.fromAddr tx = (Transaction.amount tx).toNat := if_pos ⟨kind, rfl⟩
      rw [owed] at covered ⊢
      rw [if_pos rfl, BitVec.toNat_sub_of_le (BitVec.le_def.2 (by omega))]
      omega
    · rw [if_neg own, debitAt, if_neg fun here => own here.2.symm]
  · simp only [EVMState.effect, kind, EVMState.balance_addBalance, debitAt, reduceCtorEq, false_and,
      if_false]
    by_cases own : a = tx.toAddr
    · subst own
      have due : creditAt tx.toAddr tx = (Transaction.amount tx).toNat := if_pos ⟨kind, rfl⟩
      rw [due] at room ⊢
      rw [if_pos rfl, BitVec.toNat_add_of_lt (by omega)]
      rfl
    · rw [if_neg own, creditAt, if_neg fun here => own here.2.symm]
  all_goals
    simp only [EVMState.effect, kind, debitAt, creditAt, reduceCtorEq, false_and, if_false,
      (e.applyWriteSet_frame tx.rwSet).1]

theorem Solvent.tail (solvent : Solvent (tx :: txs) e) (settling : Settling tx) :
    Solvent txs (e.effect tx) := by
  have moved := solvent.toNat_balance settling
  have covered := solvent.covered
  have room := solvent.room
  simp only [List.map_cons, List.sum_cons] at covered room
  refine ⟨fun tx' member => solvent.fits tx' (List.mem_cons_of_mem _ member), fun a => ?_,
    fun a => ?_⟩
  · have := moved a
    have := covered a
    omega
  · have := moved a
    have := room a
    omega

/-- **A solvent list pays**, and so does every other order of it. -/
theorem Solvent.pays (solvent : Solvent txs e) (settling : ∀ tx ∈ txs, Settling tx) :
    Pays txs e := by
  induction txs generalizing e with
  | nil => trivial
  | cons tx txs ih =>
      have head := settling tx List.mem_cons_self
      refine ⟨solvent.fits tx List.mem_cons_self, fun debit => ?_,
        ih (solvent.tail head) fun tx' later => settling tx' (List.mem_cons_of_mem _ later)⟩
      have covered := solvent.covered tx.fromAddr
      rw [List.map_cons, List.sum_cons, debitAt, if_pos ⟨debit, rfl⟩] at covered
      exact BitVec.le_def.2 (by omega)

theorem Solvent.perm {txs' : List Transaction} (solvent : Solvent txs e) (perm : txs.Perm txs') :
    Solvent txs' e where
  fits tx member := solvent.fits tx (perm.mem_iff.2 member)
  covered a := by
    rw [← (perm.map (debitAt a)).sum_eq]
    exact solvent.covered a
  room a := by
    rw [← (perm.map (creditAt a)).sum_eq]
    exact solvent.room a

end Solvent

/-! ## The transactions of one decision -/

theorem settling_of_mem_decisionTxs {c : Chain} {txID : TxID} {committed : Bool} {tx : Transaction}
    (member : tx ∈ c.decisionTxs txID committed) : Settling tx := by
  rcases mem_decisionTxs member with ⟨-, effect⟩ | ⟨-, rfl⟩ | rfl
  · rcases mem_commitTxs.1 effect with ⟨lock, -, rfl⟩ | ⟨credits, -, credit, -, rfl⟩ |
        ⟨call, -, -, rfl⟩ | ⟨rwSet, -, -, rfl⟩
    · exact Or.inl (Or.inl rfl)
    · exact Or.inl (Or.inr (Or.inl rfl))
    · exact Or.inl (Or.inr (Or.inr (Or.inl rfl)))
    · exact Or.inl (Or.inr (Or.inr (Or.inr rfl)))
  · exact Or.inr (Or.inr rfl)
  · exact Or.inr (Or.inl rfl)

/-- Only the debit and the credits of a commit carry an amount. -/
theorem sum_decisionTxs {M : Type} [AddMonoid M] (f : Transaction → M)
    (moneyless : ∀ tx : Transaction, tx.txType ≠ .crossDebit → tx.txType ≠ .crossCredit → f tx = 0)
    (c : Chain) (txID : TxID) :
    ((c.decisionTxs txID true).map f).sum =
      ((c.locked.get txID).toList.map fun lock => f (Chain.debitTx txID lock)).sum +
        (((c.pendingCredits.get txID).getD []).map fun credit =>
          f (Chain.creditTx txID credit)).sum := by
  have vanish : ∀ txs : List Transaction, (∀ tx ∈ txs, f tx = 0) → (txs.map f).sum = 0 := by
    intro txs none
    induction txs with
    | nil => rfl
    | cons tx txs ih =>
        rw [List.map_cons, List.sum_cons, none tx List.mem_cons_self, zero_add,
          ih fun tx' later => none tx' (List.mem_cons_of_mem _ later)]
  have writes := vanish ((c.getPendingCall txID).toList.filterMap fun call =>
      if call.localRwSet c.shardID = [] then none
      else some (Chain.writeSetTx txID (call.localRwSet c.shardID))) fun tx member => by
    obtain ⟨call, -, made⟩ := List.mem_filterMap.1 member
    split at made
    · cases made
    · cases made
      exact moneyless _ nofun nofun
  have finals := vanish ((c.getPendingRwSet txID).toList.filterMap fun rwSet =>
      if rwSet = [] then none else some (Chain.finalizeTx txID rwSet)) fun tx member => by
    obtain ⟨rwSet, -, made⟩ := List.mem_filterMap.1 member
    split at made
    · cases made
    · cases made
      exact moneyless _ nofun nofun
  have last : f (Chain.crossTx .unlock txID) = 0 := moneyless _ nofun nofun
  simp only [Chain.decisionTxs, Chain.commitTxs, if_true, List.map_append, List.sum_append,
    List.map_map, List.map_cons, List.map_nil, List.sum_cons, List.sum_nil, writes, finals, last,
    add_zero]
  rfl

/-! ## The order of effects -/

/-- What a transaction of a decision adds to the balance of `a`. -/
def moveAt (a : Address) (tx : Transaction) : U256 :=
  (if tx.txType = .crossCredit ∧ tx.toAddr = a then Transaction.amount tx else 0) -
    (if tx.txType = .crossDebit ∧ tx.fromAddr = a then Transaction.amount tx else 0)

theorem balance_effect (e : EVMState) (tx : Transaction) (a : Address) :
    (e.effect tx).balance a = e.balance a + moveAt a tx := by
  have none : ∀ (e' : EVMState), e'.balance = e.balance →
      tx.txType ≠ .crossCredit → tx.txType ≠ .crossDebit →
      e'.balance a = e.balance a + moveAt a tx := by
    intro e' same noCredit noDebit
    simp [same, moveAt, noCredit, noDebit]
  unfold EVMState.effect
  split
  · rename_i kind
    rw [EVMState.balance_subBalance, moveAt]
    by_cases own : a = tx.fromAddr
    · subst own
      simp [kind, BitVec.sub_eq_add_neg]
    · simp [kind, own, Ne.symm own]
  · rename_i kind
    rw [EVMState.balance_addBalance, moveAt]
    by_cases own : a = tx.toAddr
    · subst own
      simp [kind]
    · simp [kind, own, Ne.symm own]
  · rename_i kind
    exact none _ (e.applyWriteSet_frame tx.rwSet).1 (by simp [kind]) (by simp [kind])
  · rename_i kind
    exact none _ (e.applyWriteSet_frame tx.rwSet).1 (by simp [kind]) (by simp [kind])
  · rename_i noDebit noCredit _ _
    exact none e rfl noCredit noDebit

/-- Balances after a list of effects. -/
theorem balance_foldl_effect (txs : List Transaction) (e : EVMState) (a : Address) :
    (txs.foldl EVMState.effect e).balance a = e.balance a + (txs.map (moveAt a)).sum := by
  induction txs generalizing e with
  | nil => simp
  | cons tx txs ih =>
      rw [List.foldl_cons, ih, balance_effect, List.map_cons, List.sum_cons, BitVec.add_assoc]

/-- What a transaction of a decision writes to a slot. -/
def written (tx : Transaction) (a : Address) (s : Hash) : Option Hash :=
  if tx.txType = .crossWriteSet ∨ tx.txType = .finalize then EVMState.lastWrite tx.rwSet a s
  else none

theorem storage_effect (e : EVMState) (tx : Transaction) (a : Address) (s : Hash) :
    (e.effect tx).storage a s = (written tx a s).getD (e.storage a s) := by
  unfold EVMState.effect written
  split
  · rename_i kind
    simp only [kind, reduceCtorEq, or_self, if_false]
    rfl
  · rename_i kind
    simp only [kind, reduceCtorEq, or_self, if_false]
    rfl
  · rename_i kind
    rw [if_pos (Or.inl kind), EVMState.storage_applyWriteSet]
  · rename_i kind
    rw [if_pos (Or.inr kind), EVMState.storage_applyWriteSet]
  · rename_i _ _ noWrites noFinalize
    rw [if_neg fun kind => kind.elim noWrites noFinalize]
    rfl

theorem code_effect (e : EVMState) (tx : Transaction) : (e.effect tx).code = e.code := by
  unfold EVMState.effect
  split
  · rfl
  · rfl
  · exact (e.applyWriteSet_frame tx.rwSet).2
  · exact (e.applyWriteSet_frame tx.rwSet).2
  · rfl

/-- Two transactions do not write different values to one slot. -/
def Compatible (tx tx' : Transaction) : Prop :=
  ∀ a s, written tx a s = none ∨ written tx' a s = none ∨ written tx a s = written tx' a s

theorem effect_comm (e : EVMState) {tx tx' : Transaction} (compatible : Compatible tx tx') :
    (e.effect tx).effect tx' = (e.effect tx').effect tx := by
  refine EVMState.ext ?_ ?_ ?_
  · funext a
    rw [balance_effect, balance_effect, balance_effect, balance_effect, BitVec.add_assoc,
      BitVec.add_assoc, BitVec.add_comm (moveAt a tx)]
  · funext a s
    rw [storage_effect, storage_effect, storage_effect, storage_effect]
    rcases compatible a s with none | none | same
    · simp [none]
    · simp [none]
    · rw [same]
  · rw [code_effect, code_effect, code_effect, code_effect]

/-- **Effects of compatible transactions commute.** -/
theorem foldl_effect_perm {txs txs' : List Transaction} (perm : txs.Perm txs')
    (compatible : ∀ tx ∈ txs, ∀ tx' ∈ txs, Compatible tx tx') (e : EVMState) :
    txs.foldl EVMState.effect e = txs'.foldl EVMState.effect e :=
  perm.foldl_eq' (fun tx member tx' member' e => effect_comm e (compatible tx member tx' member')) e

/-! ## The order of clean-ups -/

/-- One table entry, or family of entries, that a clean-up drops. -/
inductive Clearing where
  | funds (txID : TxID)
  | creditTo (txID : TxID) (addr : Address)
  | credits (txID : TxID)
  | call (txID : TxID)
  | slots (txID : TxID)
  | rwSet (txID : TxID)

namespace Chain

def clear (c : Chain) : Clearing → Chain
  | .funds txID => c.clearLockLocked txID
  | .creditTo txID addr => c.clearPendingCreditForAddressLocked txID addr
  | .credits txID => c.clearPendingCredit txID
  | .call txID => c.clearPendingCall txID
  | .slots txID => c.unlockAllSlotsForTx txID
  | .rwSet txID => c.clearPendingRwSet txID

end Chain

/-- What the clean-up after a transaction of a decision drops. -/
def clearings (tx : Transaction) : List Clearing :=
  let id := tx.crossShardTxID
  let all : List Clearing := [.funds id, .credits id, .call id, .slots id, .rwSet id]
  if id = "" then []
  else
    match tx.txType with
    | .crossDebit => [.funds id]
    | .crossCredit => [.creditTo id tx.toAddr]
    | .crossWriteSet => [.call id]
    | .crossAbort => all
    | .finalize => [.slots id, .rwSet id]
    | .unlock => .slots id :: .rwSet id :: all
    | _ => []

theorem cleanup_eq_clear (c : Chain) {tx : Transaction} (settling : Settling tx) :
    c.cleanupAfterExecution tx = (clearings tx).foldl Chain.clear c := by
  by_cases unnamed : tx.crossShardTxID = ""
  · simp only [Chain.cleanupAfterExecution, clearings, unnamed, if_true, List.foldl_nil]
  · rcases settling with (kind | kind | kind | kind) | kind | kind <;>
      simp only [Chain.cleanupAfterExecution, clearings, kind, if_neg unnamed] <;> rfl

theorem foldl_cleanup_eq_clear {txs : List Transaction} (settling : ∀ tx ∈ txs, Settling tx)
    (c : Chain) :
    txs.foldl Chain.cleanupAfterExecution c = (txs.flatMap clearings).foldl Chain.clear c := by
  induction txs generalizing c with
  | nil => rfl
  | cons tx txs ih =>
      rw [List.foldl_cons, List.flatMap_cons, List.foldl_append,
        cleanup_eq_clear c (settling tx List.mem_cons_self),
        ih fun tx' later => settling tx' (List.mem_cons_of_mem _ later)]

namespace Chain

theorem get_putEntries (table : FMap Address (List LockedEntry)) (addr a : Address)
    (entries : List LockedEntry) :
    (putEntries table addr entries).get a =
      if a = addr then if entries = [] then none else some entries else table.get a := by
  unfold putEntries
  split
  · simp
  · simp

/-- Drop the first entry of `txID` at `addr`. -/
def dropEntry (table : FMap Address (List LockedEntry)) (addr : Address) (txID : TxID) :
    FMap Address (List LockedEntry) :=
  putEntries table addr (((table.get addr).getD []).eraseP fun entry => entry.txID = txID)

theorem get_dropEntry (table : FMap Address (List LockedEntry)) (addr a : Address) (txID : TxID) :
    (dropEntry table addr txID).get a =
      if a = addr then
        if ((table.get addr).getD []).eraseP (fun entry => entry.txID = txID) = [] then none
        else some (((table.get addr).getD []).eraseP fun entry => entry.txID = txID)
      else table.get a := get_putEntries ..

theorem getD_dropEntry (table : FMap Address (List LockedEntry)) (addr a : Address) (txID : TxID) :
    ((dropEntry table addr txID).get a).getD [] =
      if a = addr then ((table.get addr).getD []).eraseP fun entry => entry.txID = txID
      else (table.get a).getD [] := getD_putEntries ..

theorem dropEntry_comm (table : FMap Address (List LockedEntry)) (a b : Address) {x y : TxID}
    (different : x ≠ y) :
    dropEntry (dropEntry table a x) b y = dropEntry (dropEntry table b y) a x := by
  refine FMap.ext fun k => ?_
  by_cases same : a = b
  · subst same
    have left : (((dropEntry table a x).get a).getD []).eraseP (fun entry => entry.txID = y) =
        (((dropEntry table a y).get a).getD []).eraseP fun entry => entry.txID = x := by
      rw [getD_dropEntry, getD_dropEntry, if_pos rfl, if_pos rfl, eraseP_txID_comm different]
    rw [get_dropEntry (dropEntry table a x), get_dropEntry (dropEntry table a y), left]
    by_cases here : k = a
    · rw [if_pos here, if_pos here]
    · rw [if_neg here, if_neg here, get_dropEntry, get_dropEntry, if_neg here, if_neg here]
  · have first : ((dropEntry table a x).get b).getD [] = (table.get b).getD [] := by
      rw [getD_dropEntry, if_neg (Ne.symm same)]
    have second : ((dropEntry table b y).get a).getD [] = (table.get a).getD [] := by
      rw [getD_dropEntry, if_neg same]
    rw [get_dropEntry (dropEntry table a x), get_dropEntry (dropEntry table b y), first, second,
      get_dropEntry, get_dropEntry]
    by_cases here : k = a
    · subst here
      rw [if_neg same, if_pos rfl, if_pos rfl]
    · rw [if_neg here, if_neg here]

theorem delete_comm {K V : Type} [DecidableEq K] (m : FMap K V) (a b : K) :
    (m.delete a).delete b = (m.delete b).delete a := by
  refine FMap.ext fun k => ?_
  simp only [FMap.get_delete]
  split <;> split <;> rfl

/-- The two tables of reservations. -/
abbrev FundTables := FMap TxID LockedFunds × FMap Address (List LockedEntry)

def dropFunds (f : FundTables) (txID : TxID) : FundTables :=
  match f.1.get txID with
  | none => f
  | some lock => (f.1.delete txID, dropEntry f.2 lock.address txID)

theorem dropFunds_of_none {f : FundTables} {x : TxID} (absent : f.1.get x = none) :
    dropFunds f x = f := by
  simp only [dropFunds, absent]

theorem dropFunds_of_some {f : FundTables} {x : TxID} {lock : LockedFunds}
    (found : f.1.get x = some lock) :
    dropFunds f x = (f.1.delete x, dropEntry f.2 lock.address x) := by
  simp only [dropFunds, found]

theorem get_dropFunds_of_ne (f : FundTables) {x y : TxID} (different : y ≠ x) :
    (dropFunds f x).1.get y = f.1.get y := by
  unfold dropFunds
  split
  · rfl
  · simp [different]

/-- The reservations of two transactions are different entries, also at one address. -/
theorem dropFunds_comm (f : FundTables) (x y : TxID) :
    dropFunds (dropFunds f x) y = dropFunds (dropFunds f y) x := by
  by_cases same : x = y
  · rw [same]
  have kept := get_dropFunds_of_ne f (Ne.symm same)
  have kept' := get_dropFunds_of_ne f same
  cases first : f.1.get x with
  | none => rw [dropFunds_of_none first, dropFunds_of_none (kept'.trans first)]
  | some lock =>
      cases second : f.1.get y with
      | none => rw [dropFunds_of_none (kept.trans second), dropFunds_of_none second]
      | some lock' =>
          rw [dropFunds_of_some (kept.trans second), dropFunds_of_some (kept'.trans first),
            dropFunds_of_some first, dropFunds_of_some second, delete_comm,
            dropEntry_comm _ _ _ same]

/-- Drop the credits of `txID` to one address. -/
def dropCredit (m : FMap TxID (List PendingCredit)) (txID : TxID) (addr : Address) :
    FMap TxID (List PendingCredit) :=
  match m.get txID with
  | none => m
  | some credits =>
      let remaining := credits.filter fun credit => credit.address ≠ addr
      if remaining = [] then m.delete txID else m.set txID remaining

/-- What is left of a list of credits, unless nothing is. -/
def otherCredits (addr : Address) (credits : List PendingCredit) : Option (List PendingCredit) :=
  let remaining := credits.filter fun credit => credit.address ≠ addr
  if remaining = [] then none else some remaining

theorem get_dropCredit (m : FMap TxID (List PendingCredit)) (txID x : TxID) (addr : Address) :
    (dropCredit m txID addr).get x =
      if x = txID then (m.get x).bind (otherCredits addr) else m.get x := by
  unfold dropCredit otherCredits
  by_cases own : x = txID
  · subst own
    cases found : m.get x with
    | none => simp [found]
    | some credits =>
        simp only [if_true, Option.bind_some]
        split <;> simp
  · cases found : m.get txID with
    | none => simp [own]
    | some credits =>
        simp only [own, if_false]
        split <;> simp [own]

theorem otherCredits_bind (a b : Address) (credits : List PendingCredit) :
    (otherCredits a credits).bind (otherCredits b) =
      if credits.filter (fun credit => credit.address ≠ a && credit.address ≠ b) = [] then none
      else some (credits.filter fun credit => credit.address ≠ a && credit.address ≠ b) := by
  have both : (credits.filter fun credit => credit.address ≠ a).filter
      (fun credit => credit.address ≠ b) =
      credits.filter fun credit => credit.address ≠ a && credit.address ≠ b := by
    rw [List.filter_filter]
    simp only [Bool.and_comm]
  rw [← both]
  simp only [otherCredits]
  by_cases empty : (credits.filter fun credit => credit.address ≠ a) = []
  · simp only [empty, if_true, Option.bind_none, List.filter_nil]
  · simp only [empty, if_false, Option.bind_some]
    rfl

theorem otherCredits_comm (a b : Address) (credits : List PendingCredit) :
    (otherCredits a credits).bind (otherCredits b) =
      (otherCredits b credits).bind (otherCredits a) := by
  rw [otherCredits_bind, otherCredits_bind]
  simp only [Bool.and_comm]

theorem dropCredit_comm (m : FMap TxID (List PendingCredit)) (x y : TxID) (a b : Address) :
    dropCredit (dropCredit m x a) y b = dropCredit (dropCredit m y b) x a := by
  refine FMap.ext fun k => ?_
  simp only [get_dropCredit]
  by_cases first : k = x
  · by_cases second : k = y
    · simp only [if_pos first, if_pos second]
      cases m.get k with
      | none => rfl
      | some credits => exact otherCredits_comm a b credits
    · simp only [if_pos first, if_neg second]
  · simp only [if_neg first]

theorem dropCredit_delete (m : FMap TxID (List PendingCredit)) (x y : TxID) (a : Address) :
    dropCredit (m.delete y) x a = (dropCredit m x a).delete y := by
  refine FMap.ext fun k => ?_
  simp only [get_dropCredit, FMap.get_delete]
  by_cases gone : k = y
  · simp [gone]
  · simp [gone]

def dropHolder (table : FMap Address (FMap Hash TxID)) (txID : TxID) :
    FMap Address (FMap Hash TxID) := table.filterMap fun _ slots => withoutHolder txID slots

/-- The slots that `txID` does not hold. -/
def othersSlots (txID : TxID) (slots : FMap Hash TxID) : FMap Hash TxID :=
  slots.filterMap fun _ holder => if holder = txID then none else some holder

theorem othersSlots_comm (x y : TxID) (slots : FMap Hash TxID) :
    othersSlots y (othersSlots x slots) = othersSlots x (othersSlots y slots) := by
  refine FMap.ext fun slot => ?_
  simp only [othersSlots, FMap.get_filterMap]
  cases slots.get slot with
  | none => rfl
  | some holder =>
      simp only [Option.bind_some]
      split <;> split <;> simp_all

theorem withoutHolder_bind (x y : TxID) (slots : FMap Hash TxID) :
    (withoutHolder x slots).bind (withoutHolder y) =
      if (othersSlots y (othersSlots x slots)).len = 0 then none
      else some (othersSlots y (othersSlots x slots)) := by
  have first : withoutHolder x slots =
      if (othersSlots x slots).len = 0 then none else some (othersSlots x slots) := rfl
  rw [first]
  by_cases empty : (othersSlots x slots).len = 0
  · have gone : (othersSlots y (othersSlots x slots)).len = 0 := by
      refine FMap.len_eq_zero.2 fun slot => ?_
      rw [othersSlots, FMap.get_filterMap, FMap.len_eq_zero.1 empty slot]
      rfl
    rw [if_pos empty, if_pos gone]
    rfl
  · rw [if_neg empty]
    rfl

theorem withoutHolder_comm (x y : TxID) (slots : FMap Hash TxID) :
    (withoutHolder x slots).bind (withoutHolder y) =
      (withoutHolder y slots).bind (withoutHolder x) := by
  rw [withoutHolder_bind, withoutHolder_bind, othersSlots_comm]

theorem dropHolder_comm (table : FMap Address (FMap Hash TxID)) (x y : TxID) :
    dropHolder (dropHolder table x) y = dropHolder (dropHolder table y) x := by
  refine FMap.ext fun a => ?_
  simp only [dropHolder, FMap.get_filterMap]
  cases table.get a with
  | none => rfl
  | some slots => exact withoutHolder_comm x y slots

theorem clear_funds (c : Chain) (txID : TxID) :
    c.clearLockLocked txID = { c with
      locked := (dropFunds (c.locked, c.lockedByAddr) txID).1
      lockedByAddr := (dropFunds (c.locked, c.lockedByAddr) txID).2 } := by
  unfold clearLockLocked dropFunds
  dsimp only
  cases c.locked.get txID <;> rfl

theorem clear_creditTo (c : Chain) (txID : TxID) (addr : Address) :
    c.clearPendingCreditForAddressLocked txID addr =
      { c with pendingCredits := dropCredit c.pendingCredits txID addr } := by
  unfold clearPendingCreditForAddressLocked dropCredit
  cases c.pendingCredits.get txID <;> rfl

/-- **Clearings commute.** -/
theorem clear_comm (c : Chain) (k k' : Clearing) :
    (c.clear k).clear k' = (c.clear k').clear k := by
  cases k with
  | funds x =>
      cases k' with
      | funds y => simp only [clear, clear_funds, Prod.mk.eta, dropFunds_comm _ x y]
      | creditTo y a => simp only [clear, clear_funds, clear_creditTo]
      | _ =>
          simp only [clear, clear_funds]
          rfl
  | creditTo x a =>
      cases k' with
      | funds y => simp only [clear, clear_funds, clear_creditTo]
      | creditTo y b => simp only [clear, clear_creditTo, dropCredit_comm _ x y a b]
      | credits y =>
          simp only [clear, clear_creditTo, clearPendingCredit, dropCredit_delete]
      | _ =>
          simp only [clear, clear_creditTo]
          rfl
  | credits x =>
      cases k' with
      | funds y =>
          simp only [clear, clear_funds]
          rfl
      | creditTo y b => simp only [clear, clear_creditTo, clearPendingCredit, dropCredit_delete]
      | credits y => simp only [clear, clearPendingCredit, delete_comm _ x y]
      | _ => rfl
  | call x =>
      cases k' with
      | funds y =>
          simp only [clear, clear_funds]
          rfl
      | creditTo y b =>
          simp only [clear, clear_creditTo]
          rfl
      | call y => simp only [clear, clearPendingCall, delete_comm _ x y]
      | _ => rfl
  | slots x =>
      cases k' with
      | funds y =>
          simp only [clear, clear_funds]
          rfl
      | creditTo y b =>
          simp only [clear, clear_creditTo]
          rfl
      | slots y =>
          have slots := dropHolder_comm c.slotLocks x y
          unfold dropHolder at slots
          simp only [clear, unlockAllSlotsForTx, slots]
      | _ => rfl
  | rwSet x =>
      cases k' with
      | funds y =>
          simp only [clear, clear_funds]
          rfl
      | creditTo y b =>
          simp only [clear, clear_creditTo]
          rfl
      | rwSet y => simp only [clear, clearPendingRwSet, delete_comm _ x y]
      | _ => rfl

end Chain

/-- **Clean-ups commute.** -/
theorem foldl_cleanup_perm {txs txs' : List Transaction} (perm : txs.Perm txs')
    (settling : ∀ tx ∈ txs, Settling tx) (c : Chain) :
    txs.foldl Chain.cleanupAfterExecution c = txs'.foldl Chain.cleanupAfterExecution c := by
  rw [foldl_cleanup_eq_clear settling,
    foldl_cleanup_eq_clear fun tx member => settling tx (perm.mem_iff.2 member)]
  exact (perm.flatMap_right clearings).foldl_eq' (fun k _ k' _ c => c.clear_comm k k') c

end CrossShard.Shard
