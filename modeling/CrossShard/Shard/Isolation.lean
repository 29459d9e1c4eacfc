/-
# Shard.Isolation -- prepared transactions see a frozen read set

Between a successful `Lock` and the first write of its transaction, every slot of the
transaction's read set stays locked for it and keeps the value that was validated: other
committed transactions write only slots they hold, and local transactions are kept away
from locked addresses.

The abstract machine `serialStep` executes a history one transaction at a time and has no
locks: a committed transaction validates its whole read set and applies its whole write set
in one step, at its `Finalize`, and its `CrossWriteSet` is nothing.
`prepared_transactions_isolated` says that the shard refines it: between blocks its state is
the one the serial machine reaches on the transactions of its blocks.

Both take block productions that complete.  After a failed `EVMState.Commit` the queue is executed
once more on what it has already done (`failed_commit_frees_read_set`).
-/
import CrossShard.Shard.Provenance

namespace CrossShard.Shard

set_option autoImplicit false

open CrossShard.Library CrossShard.Protocol
open Chain (debitTx creditTx writeSetTx finalizeTx crossTx lockTx readItems ReadsSlot)

/-! ## Assumptions on a run -/

/-- A call writes storage only at its callee. -/
def StorageConfined (vm : VM) : Prop :=
  ∀ e caller callee data gas value e', vm.call e caller callee data gas value = .ok e' →
    ∀ a, a ≠ callee → e'.storage a = e.storage a

/-- Every written slot is read by the same entry. -/
def WritesRead (t : CrossShardTx) : Prop :=
  ∀ rw ∈ t.rwSet, ∀ w ∈ rw.writeSet, ∃ r ∈ rw.readSet, r.slot = w.slot

/-- A commit comes after a YES vote in a block of this shard, unless the shard has recorded
nothing for the transaction, as when it is not involved. -/
def CommittedAfterVote (n : Node) : Event → Prop
  | .decision txID true =>
      n.chain.isCommitProcessed txID = false → n.VotedYes txID ∨ n.chain.hasData txID = false
  | _ => True

/-! ## The serial machine -/

/-- The transactions that apply a write set. -/
def Writes (tx : Transaction) : Prop := tx.txType = .crossWriteSet ∨ tx.txType = .finalize

instance (tx : Transaction) : Decidable (Writes tx) := inferInstanceAs (Decidable (_ ∨ _))

/-- Every slot of the read set has its recorded value. -/
def readsMatch (e : EVMState) (rwSet : List RwVariable) : Prop :=
  ∀ p ∈ readItems rwSet, e.getStorageAt p.1 p.2.slot = bytesToHash p.2.value

instance (e : EVMState) (rwSet : List RwVariable) : Decidable (readsMatch e rwSet) :=
  inferInstanceAs (Decidable (∀ p ∈ readItems rwSet, _))

/-- One transaction of a serial history. -/
def serialStep (vm : VM) (e : EVMState) (tx : Transaction) : Option EVMState :=
  match tx.txType with
  | .crossWriteSet => some e
  | .finalize => if readsMatch e tx.rwSet then some (e.applyWriteSet tx.rwSet) else none
  | _ =>
      match e.executeTx vm tx with
      | .ok e' => some e'
      | _ => none

/-! ## Held read sets -/

/-- Every slot of the read set of `t` on this shard is held by `t`. -/
def SlotsHeld (shardID : Int) (c : Chain) (t : CrossShardTx) : Prop :=
  ∀ p ∈ readItems (t.localRwSet shardID), c.slotHolder p.1 p.2.slot = some t.id

/-- ... and has the value that `t` read; the write set of `t` is recorded. -/
structure Held (shardID : Int) (n : Node) (t : CrossShardTx) : Prop where
  slots : SlotsHeld shardID n.chain t
  values : readsMatch n.evm (t.localRwSet shardID)
  recorded : n.chain.pendingRwSets.get t.id = some (t.localRwSet shardID)

/-- A transaction that holds its read set writes only slots it holds. -/
theorem lastWrite_of_not_held {shardID : Int} {c : Chain} {t : CrossShardTx} (reads : WritesRead t)
    (held : SlotsHeld shardID c t) {a : Address} {s : Hash} (other : c.slotHolder a s ≠ some t.id) :
    EVMState.lastWrite (t.localRwSet shardID) a s = none := by
  refine EVMState.lastWrite_eq_none fun rw member w written same => other ?_
  obtain ⟨r, listed, slot⟩ := reads rw (List.mem_of_mem_filter member) w written
  have item : (rw.address, r) ∈ readItems (t.localRwSet shardID) :=
    List.mem_flatMap.2 ⟨rw, member, List.mem_map_of_mem listed⟩
  rw [same.1, same.2, ← slot]
  exact held _ item

/-! ## Half-written transactions -/

/-- The ID whose `CrossWriteSet` is `tx`. -/
def opens (tx : Transaction) : Option TxID :=
  if tx.txType = .crossWriteSet then some tx.crossShardTxID else none

/-- The transaction between its `CrossWriteSet` and its `Finalize`. -/
def Node.half (n : Node) : Option TxID :=
  n.work.bind fun work => work.successful.getLast?.bind opens

/-- Each `CrossWriteSet` is followed at once by the `Finalize` of its ID; `half` is the ID
that the list must begin to finalize. -/
def Paired : Option TxID → List Transaction → Prop
  | half, [] => half = none
  | none, tx :: rest => Paired (opens tx) rest
  | some txID, tx :: rest => tx.txType = .finalize ∧ tx.crossShardTxID = txID ∧ Paired none rest

theorem Paired.append {half : Option TxID} {txs txs' : List Transaction} (front : Paired half txs)
    (back : Paired none txs') : Paired half (txs ++ txs') := by
  induction txs generalizing half with
  | nil =>
      rw [show half = none from front]
      exact back
  | cons tx rest ih =>
      cases half with
      | none => exact ih front
      | some txID => exact ⟨front.1, front.2.1, ih front.2.2⟩

/-- A list without `CrossWriteSet`s is paired. -/
theorem paired_of_forall {txs : List Transaction} (none_opens : ∀ tx ∈ txs, opens tx = none) :
    Paired none txs := by
  induction txs with
  | nil => rfl
  | cons tx rest ih =>
      show Paired (opens tx) rest
      rw [none_opens tx (List.mem_cons_self ..)]
      exact ih fun tx' member => none_opens tx' (List.mem_cons_of_mem _ member)

theorem Paired.finalize_mem {half : Option TxID} {txs : List Transaction} (paired : Paired half txs)
    {tx : Transaction} (member : tx ∈ txs) (kind : tx.txType = .crossWriteSet) :
    ∃ final ∈ txs, final.txType = .finalize ∧ final.crossShardTxID = tx.crossShardTxID := by
  induction txs generalizing half with
  | nil => cases member
  | cons first rest ih =>
      -- the tail is paired after whatever `first` opens
      have later : ∀ {half' : Option TxID}, Paired half' rest → tx ∈ rest →
          ∃ final ∈ first :: rest, final.txType = .finalize ∧
            final.crossShardTxID = tx.crossShardTxID := by
        intro half' paired' member'
        obtain ⟨final, listed, facts⟩ := ih paired' member'
        exact ⟨final, List.mem_cons_of_mem _ listed, facts⟩
      rcases List.mem_cons.1 member with rfl | member'
      · cases half with
        | none =>
            have next : Paired (some tx.crossShardTxID) rest := by
              have open_now : opens tx = some tx.crossShardTxID := if_pos kind
              rw [← open_now]
              exact paired
            cases rest with
            | nil => cases next
            | cons final rest =>
                exact ⟨final, by simp, next.1, next.2.1⟩
        | some txID =>
            have final : tx.txType = .finalize := paired.1
            rw [kind] at final
            cases final
      · cases half with
        | none => exact later paired member'
        | some txID => exact later paired.2.2 member'

/-- The transactions of first priority, in order. -/
def effects (txs : List Transaction) : List Transaction :=
  txs.filter fun tx => tx.txType.priority = 1

/-- The state of a committed transaction whose write waits: its slots are held, and before
the first write they have the values that were read. -/
structure Ready (shardID : Int) (n : Node) (t : CrossShardTx) : Prop where
  slots : SlotsHeld shardID n.chain t
  values : n.half ≠ some t.id → readsMatch n.evm (t.localRwSet shardID)

/-- The serial machine executes what the shard has included, and ends in the shard's state,
or just before the writes that the shard has half made. -/
def Serialized (shardID : Int) (vm : VM) (evm : EVMState) (es : List Event) (n : Node) : Prop :=
  ∃ state, run (serialStep vm) evm n.included = some state ∧ (n.half = none → n.evm = state) ∧
    ∀ t ∈ ordered es, n.half = some t.id → readsMatch state (t.localRwSet shardID) ∧
      n.evm = state.applyWriteSet (t.localRwSet shardID)

/-- The invariant of isolated runs. -/
structure Isolated (shardID : Int) (vm : VM) (evm : EVMState) (es : List Event) (n : Node) :
    Prop where
  voted : ∀ txID, n.chain.prepares.get txID = some true ∨ n.VotedYes txID →
    ∃ t ∈ ordered es, t.id = txID ∧ lockTx shardID t ∈ executed es ∧
      (verdict es txID = none → Held shardID n t)
  waiting : ∀ tx ∈ n.outstanding, Writes tx → ∀ t ∈ ordered es, t.id = tx.crossShardTxID →
    Ready shardID n t
  sequence : Paired n.half (effects n.outstanding)
  serial : Serialized shardID vm evm es n

/-! ## Frames -/

theorem storage_executeLocalTx {vm : VM} (confined : StorageConfined vm) {e e' : EVMState}
    {tx : Transaction} (ran : e.executeLocalTx vm tx = .ok e') {a : Address}
    (other : a ≠ tx.toAddr) : e'.storage a = e.storage a := by
  unfold EVMState.executeLocalTx at ran
  split at ran
  · cases ran
  · dsimp only at ran
    split at ran
    · split at ran
      · rename_i called
        cases ran
        exact confined _ _ _ _ _ _ _ called a other
      · cases ran
    · split at ran
      · cases ran
        rfl
      · cases ran

theorem toAddr_not_held {c : Chain} {tx : Transaction} (kind : tx.txType = .localTx)
    (free : c.checkLocalTxLockConflict tx = none) (s : Hash) : c.slotHolder tx.toAddr s = none := by
  simp only [Chain.checkLocalTxLockConflict, kind, ne_eq, not_true_eq_false, if_false] at free
  split at free
  · cases free
  · split at free
    · cases free
    · rename_i unlocked
      by_contra held
      exact unlocked (Chain.isAddressLocked_iff.2 ⟨s, held⟩)

section Step

variable {shardID : Int} {vm : VM} {evm₀ : EVMState} {es : List Event} {e : Event} {n n' : Node}

/-- **No executed transaction writes a slot held by another.** -/
theorem Isolated.storage_frame (isolated : Isolated shardID vm evm₀ es n)
    (traced : Traced shardID es n) (confined : StorageConfined vm)
    (reads : ∀ t ∈ ordered es, WritesRead t) {tx : Transaction} {rest successful : List Transaction}
    (busy : n.work = some ⟨tx :: rest, successful⟩)
    (free : n.chain.checkLocalTxLockConflict tx = none) {evm : EVMState}
    (ran : n.evm.executeTx vm tx = .ok evm) {a : Address} {s : Hash} {txID : TxID}
    (held : n.chain.slotHolder a s = some txID)
    (other : Writes tx → tx.crossShardTxID ≠ txID) : evm.storage a s = n.evm.storage a s := by
  have waits : tx ∈ n.outstanding := by simp [Node.outstanding_of_busy busy]
  have written : ∀ t ∈ ordered es, t.id = tx.crossShardTxID → Writes tx →
      (n.evm.applyWriteSet (t.localRwSet shardID)).storage a s = n.evm.storage a s := by
    intro t known same writes
    have ready := isolated.waiting tx waits writes t known same
    rw [EVMState.storage_applyWriteSet, lastWrite_of_not_held (reads t known) ready.slots]
    · rfl
    · rw [held, same]
      exact fun own => other writes (Option.some.inj own).symm
  cases traced.queued tx (mem_ledger_of_outstanding waits) with
  | submission _ kind unnamed =>
      have elsewhere : a ≠ tx.toAddr := by
        rintro rfl
        rw [toAddr_not_held kind free s] at held
        cases held
      simp only [EVMState.executeTx, kind] at ran
      rw [storage_executeLocalTx confined ran elsewhere]
  | lock t known involved =>
      cases ran
      rfl
  | effect t known committed _ caused =>
      cases caused with
      | debit source => rw [EVMState.storage_debit ran]
      | credit home => rw [EVMState.storage_credit ran]
      | writeSet =>
          cases ran
          exact written t known rfl (Or.inl rfl)
      | finalize =>
          cases ran
          exact written t known rfl (Or.inr rfl)
  | unlock txID committed decided =>
      cases ran
      rfl
  | abort txID aborted =>
      cases ran
      rfl

/-- The transactions after which `txID` no longer needs its read set. -/
def Closes (txID : TxID) (tx : Transaction) : Prop :=
  (Writes tx ∨ tx.txType = .unlock ∨ tx.txType = .crossAbort) ∧ tx.crossShardTxID = txID

theorem cleanup_of_not_closes {c : Chain} {tx : Transaction} {txID : TxID}
    (keeps : ¬Closes txID tx) :
    (∀ a s, c.slotHolder a s = some txID → (c.cleanupAfterExecution tx).slotHolder a s = some txID) ∧
      (c.cleanupAfterExecution tx).pendingRwSets.get txID = c.pendingRwSets.get txID := by
  by_cases own : tx.crossShardTxID = txID
  · have kinds : ¬(Writes tx ∨ tx.txType = .unlock ∨ tx.txType = .crossAbort) :=
      fun kinds => keeps ⟨kinds, own⟩
    have same : (c.cleanupAfterExecution tx).slotHolder = c.slotHolder ∧
        (c.cleanupAfterExecution tx).pendingRwSets = c.pendingRwSets := by
      unfold Chain.cleanupAfterExecution
      dsimp only
      split
      · exact ⟨rfl, rfl⟩
      · split
        · rw [Chain.clearLockLocked_eq]
          exact ⟨rfl, rfl⟩
        · unfold Chain.clearPendingCreditForAddressLocked
          split <;> exact ⟨rfl, rfl⟩
        · exact ⟨rfl, rfl⟩
        · rename_i kind
          exact absurd (Or.inr (Or.inr kind)) kinds
        · exact ⟨rfl, rfl⟩
        · rename_i kind
          exact absurd (Or.inl (Or.inr kind)) kinds
        · rename_i kind
          exact absurd (Or.inr (Or.inl kind)) kinds
        · exact ⟨rfl, rfl⟩
    rw [same.1, same.2]
    exact ⟨fun _ _ held => held, rfl⟩
  · have view := Chain.view_cleanupAfterExecution_of_ne (c := c) (Ne.symm own)
    refine ⟨fun a s held => ?_, congrArg Chain.TxView.rwSet view⟩
    exact (congrArg (fun v => (⟨a, s⟩ : SlotKey) ∈ v.slots) view).mpr held

theorem Held.of_frame {t : CrossShardTx} (held : Held shardID n t)
    (slots : ∀ a s, n.chain.slotHolder a s = some t.id → n'.chain.slotHolder a s = some t.id)
    (storage : ∀ a s, n.chain.slotHolder a s = some t.id → n'.evm.storage a s = n.evm.storage a s)
    (rwSet : n'.chain.pendingRwSets.get t.id = n.chain.pendingRwSets.get t.id) :
    Held shardID n' t where
  slots p member := slots _ _ (held.slots p member)
  values p member := (storage _ _ (held.slots p member)).trans (held.values p member)
  recorded := rwSet.trans held.recorded

/-- A granted `Lock` holds what it reads. -/
theorem held_of_lock {t : CrossShardTx} {c : Chain} {work : Option Work}
    (lock : Chain.Granted n.chain n.evm (lockTx shardID t) c) :
    Held shardID ⟨c, n.evm, work⟩ t where
  slots p member := lock.taken _ _ ⟨p, member, rfl, rfl⟩
  values := lock.matched
  recorded := by
    show c.pendingRwSets.get t.id = _
    rw [lock.chain]
    exact (FMap.get_set ..).trans (if_pos rfl)

theorem slotHolder_of_view {c c' : Chain} {txID : TxID} (view : c'.view txID = c.view txID)
    {a : Address} {s : Hash} (held : c.slotHolder a s = some txID) :
    c'.slotHolder a s = some txID := by
  have key : (⟨a, s⟩ : SlotKey) ∈ (c.view txID).slots := held
  rw [← view] at key
  exact key

/-- **One step of the window.**  A held read set survives every event that neither closes nor
locks its transaction. -/
theorem Held.step {t : CrossShardTx} (held : Held shardID n t)
    (isolated : Isolated shardID vm evm₀ es n) (traced : Traced shardID es n)
    (confined : StorageConfined vm) (reads : ∀ t ∈ ordered es, WritesRead t)
    (taken : Taken vm n e n')
    (keeps : ∀ tx, e = .execute tx → ¬Closes t.id tx ∧ ¬LockOf t.id tx) : Held shardID n' t := by
  cases taken with
  | ordered tx idle involved =>
      refine held.of_frame (fun a s own => ?_) (fun _ _ _ => rfl) ?_
      · show (n.chain.noteOrder tx).slotHolder a s = some t.id
        rw [Chain.noteOrder_eq]
        exact own
      · show (n.chain.noteOrder tx).pendingRwSets.get t.id = _
        rw [Chain.noteOrder_eq]
  | granted tx rest successful busy kind chain lock =>
      have view := lock.view_of_ne fun own => (keeps tx rfl).2 ⟨kind, own.symm⟩
      exact held.of_frame (fun a s => slotHolder_of_view view) (fun _ _ _ => rfl)
        (congrArg Chain.TxView.rwSet view)
  | refused tx rest successful busy kind chain lock result =>
      have view := lock.others t.id fun own => (keeps tx rfl).2 ⟨kind, own.symm⟩
      exact held.of_frame (fun a s => slotHolder_of_view view) (fun _ _ _ => rfl)
        (congrArg Chain.TxView.rwSet view)
  | applied tx rest successful busy kind free evm ran =>
      have other := (keeps tx rfl).1
      obtain ⟨slots, rwSet⟩ := cleanup_of_not_closes (c := n.chain) other
      refine held.of_frame slots (fun a s own => ?_) rwSet
      exact isolated.storage_frame traced confined reads busy free ran own
        fun writes same => other ⟨Or.inl writes, same⟩
  | _ => exact held.of_frame (fun _ _ own => own) (fun _ _ _ => rfl) rfl

/-! ## Votes -/

/-- A transaction that is not decided is not closed. -/
theorem Traced.not_closes (traced : Traced shardID es n) {tx : Transaction}
    (waits : tx ∈ n.outstanding) {txID : TxID} (undecided : verdict es txID = none) :
    ¬Closes txID tx := by
  rintro ⟨kinds, rfl⟩
  cases traced.queued tx (mem_ledger_of_outstanding waits) with
  | submission _ kind unnamed => simp [Writes, kind] at kinds
  | lock t known involved => simp [Writes, lockTx, crossTx] at kinds
  | effect t known committed _ caused =>
      rw [caused.id_eq, committed] at undecided
      cases undecided
  | unlock txID committed decided =>
      rw [show (crossTx .unlock txID).crossShardTxID = txID from rfl, decided] at undecided
      cases undecided
  | abort txID aborted =>
      rw [show (crossTx .crossAbort txID).crossShardTxID = txID from rfl, aborted] at undecided
      cases undecided

theorem verdict_of_append_none {txID : TxID} (undecided : verdict (es ++ [e]) txID = none) :
    verdict es txID = none := by
  rw [verdict_append, Option.or_eq_none_iff] at undecided
  exact undecided.1

theorem Isolated.voted_step (isolated : Isolated shardID vm evm₀ es n)
    (traced : Traced shardID es n) (ok : Disciplined es) (confined : StorageConfined vm)
    (reads : ∀ t ∈ ordered es, WritesRead t) (taken : Taken vm n e n') (txID : TxID)
    (vote : n'.chain.prepares.get txID = some true ∨ n'.VotedYes txID) :
    ∃ t ∈ ordered (es ++ [e]), t.id = txID ∧ lockTx shardID t ∈ executed (es ++ [e]) ∧
      (verdict (es ++ [e]) txID = none → Held shardID n' t) := by
  -- a vote cast before this event
  have old : (n.chain.prepares.get txID = some true ∨ n.VotedYes txID) →
      ∃ t ∈ ordered (es ++ [e]), t.id = txID ∧ lockTx shardID t ∈ executed (es ++ [e]) ∧
        (verdict (es ++ [e]) txID = none → Held shardID n' t) := by
    intro before
    obtain ⟨t, known, rfl, done, held⟩ := isolated.voted txID before
    refine ⟨t, mem_ordered_append known _, rfl, mem_executed_append done _, fun undecided => ?_⟩
    have undecided' := verdict_of_append_none undecided
    refine (held undecided').step isolated traced confined reads taken ?_
    rintro tx rfl
    have waits := taken.waits
    refine ⟨traced.not_closes waits undecided', fun lock => ?_⟩
    obtain ⟨t', known', -, rfl⟩ := traced.lock_of_kind (mem_ledger_of_outstanding waits) lock.1
    rw [ok.unique known' known lock.2] at waits
    exact traced.lock_not_executed ok waits rfl done
  have blocks : n'.chain.blocks = n.chain.blocks → n'.VotedYes txID → n.VotedYes txID := by
    rintro same ⟨block, member, yes⟩
    exact ⟨block, same ▸ member, yes⟩
  cases taken with
  | ordered tx idle involved =>
      have steady := n.chain.steady_noteOrder tx
      rcases vote with yes | yes
      · change (n.chain.noteOrder tx).prepares.get txID = some true at yes
        rw [Chain.noteOrder_eq] at yes
        exact old (Or.inl yes)
      · exact old (Or.inr (blocks (congrArg Chain.Steady.blocks steady) yes))
  | granted tx rest successful busy kind chain lock =>
      rcases vote with yes | yes
      · obtain ⟨t, known, -, rfl⟩ := traced.lock_of_kind
          (mem_ledger_of_outstanding (by simp [Node.outstanding_of_busy busy])) kind
        change chain.prepares.get txID = some true at yes
        by_cases own : txID = t.id
        · exact ⟨t, mem_ordered_append known _, own.symm, by simp [executed], fun _ => held_of_lock lock⟩
        · rw [lock.chain] at yes
          have other : txID ≠ (lockTx shardID t).crossShardTxID := own
          dsimp only at yes
          split at yes
          · exact old (Or.inl yes)
          · rw [FMap.get_set, if_neg other] at yes
            exact old (Or.inl yes)
      · exact old (Or.inr (blocks (congrArg Chain.Steady.blocks lock.steady) yes))
  | refused tx rest successful busy kind chain lock result =>
      rcases vote with yes | yes
      · change chain.prepares.get txID = some true at yes
        rw [lock.vote, FMap.get_set] at yes
        split at yes
        · cases yes
        · exact old (Or.inl yes)
      · exact old (Or.inr (blocks (congrArg Chain.Steady.blocks lock.steady) yes))
  | applied tx rest successful busy kind free evm ran =>
      rcases vote with yes | yes
      · change (n.chain.cleanupAfterExecution tx).prepares.get txID = some true at yes
        rw [n.chain.prepares_cleanupAfterExecution kind] at yes
        exact old (Or.inl yes)
      · have steady := n.chain.steady_cleanupAfterExecution tx
        exact old (Or.inr (blocks (congrArg Chain.Steady.blocks steady) yes))
  | committed stateRoot successful busy =>
      rcases vote with yes | ⟨block, member, yes⟩
      · simp [BlockState.finish] at yes
      · rcases List.mem_append.1 member with earlier | new
        · exact old (Or.inr ⟨block, earlier, yes⟩)
        · rw [List.mem_singleton.1 new] at yes
          exact old (Or.inl yes)
  | _ => exact old vote

/-! ## The order of the writes of one transaction -/

theorem Writes.priority_eq {tx : Transaction} (writes : Writes tx) : tx.txType.priority = 1 := by
  rcases writes with kind | kind <;> simp [kind, TxType.priority]

theorem Writes.not_skipped {tx : Transaction} (writes : Writes tx)
    (reason : (n.chain.checkLocalTxLockConflict tx).isSome ∨
      tx.txType ≠ .lock ∧ ∃ msg, n.evm.executeTx vm tx = .error msg) : False := by
  rcases reason with conflict | ⟨-, msg, failure⟩
  · rcases writes with kind | kind <;> simp [Chain.checkLocalTxLockConflict, kind] at conflict
  · rcases writes with kind | kind <;> simp [EVMState.executeTx, kind] at failure

theorem half_of_idle (idle : n.work = none) : n.half = none := by simp [Node.half, idle]

/-- While a transaction is half-written, its `Finalize` is the next to execute. -/
theorem Isolated.head_of_half (isolated : Isolated shardID vm evm₀ es n)
    (traced : Traced shardID es n) {tx : Transaction} {rest successful : List Transaction}
    (busy : n.work = some ⟨tx :: rest, successful⟩) {txID : TxID} (half : n.half = some txID) :
    tx.txType = .finalize ∧ tx.crossShardTxID = txID ∧ Paired none (effects rest) := by
  have paired := isolated.sequence
  rw [Node.outstanding_of_busy busy, half] at paired
  by_cases first : tx.txType.priority = 1
  · rw [effects, List.filter_cons_of_pos (by simpa using first)] at paired
    exact paired
  · -- nothing of the first priority would be left
    have empty : effects (tx :: rest) = [] := by
      refine List.filter_eq_nil_iff.2 fun tx' member => ?_
      rcases List.mem_cons.1 member with rfl | member
      · simpa using first
      · have le := traced.sorted.priority_le busy member
        have pos : 1 ≤ tx.txType.priority := by cases tx.txType <;> decide
        simp only [decide_eq_true_eq]
        omega
    rw [empty] at paired
    cases paired

theorem opens_of_priority {tx : Transaction} (late : tx.txType.priority ≠ 1) : opens tx = none := by
  refine if_neg fun kind => late ?_
  rw [kind]
  rfl

theorem Isolated.sequence_tail (isolated : Isolated shardID vm evm₀ es n)
    (traced : Traced shardID es n) {tx : Transaction} {rest successful : List Transaction}
    (busy : n.work = some ⟨tx :: rest, successful⟩) : Paired (opens tx) (effects rest) := by
  cases half : n.half with
  | some txID =>
      obtain ⟨kind, -, paired⟩ := isolated.head_of_half traced busy half
      simpa [opens, kind] using paired
  | none =>
      have paired := isolated.sequence
      rw [Node.outstanding_of_busy busy, half] at paired
      by_cases first : tx.txType.priority = 1
      · rw [effects, List.filter_cons_of_pos (by simpa using first)] at paired
        exact paired
      · rw [effects, List.filter_cons_of_neg (by simpa using first)] at paired
        rw [opens_of_priority first]
        exact paired

/-- Nothing is half-written when a transaction other than a write executes. -/
theorem Isolated.half_of_not_writes (isolated : Isolated shardID vm evm₀ es n)
    (traced : Traced shardID es n) {tx : Transaction} {rest successful : List Transaction}
    (busy : n.work = some ⟨tx :: rest, successful⟩) (unwritten : ¬Writes tx) : n.half = none := by
  refine Option.eq_none_iff_forall_ne_some.2 fun txID half => ?_
  exact unwritten (Or.inr (isolated.head_of_half traced busy half).1)

theorem effects_append (txs txs' : List Transaction) :
    effects (txs ++ txs') = effects txs ++ effects txs' := List.filter_append ..

theorem effects_commitTxs (c : Chain) (txID : TxID) :
    effects (c.commitTxs txID) = c.commitTxs txID := by
  refine List.filter_eq_self.2 fun tx member => ?_
  rcases mem_commitTxs.1 member with ⟨_, -, rfl⟩ | ⟨_, -, _, -, rfl⟩ | ⟨_, -, -, rfl⟩ |
    ⟨_, -, -, rfl⟩ <;> rfl

/-- What the shard records for a transaction that it voted for or knows nothing of. -/
theorem Isolated.voted_or_empty (isolated : Isolated shardID vm evm₀ es n)
    (traced : Traced shardID es n) {txID : TxID} (fresh : n.chain.isCommitProcessed txID = false)
    (votes : n.VotedYes txID ∨ n.chain.hasData txID = false) :
    (∃ t ∈ ordered es, t.id = txID ∧ Held shardID n t) ∨ n.chain.commitTxs txID = [] := by
  rcases votes with yes | empty
  · left
    obtain ⟨t, known, id, -, held⟩ := isolated.voted txID (Or.inr yes)
    have undecided : verdict es txID = none := by
      have mark := traced.marked txID
      rw [fresh] at mark
      simpa using mark.symm
    exact ⟨t, known, id, held undecided⟩
  · right
    simp only [Chain.hasData, Bool.or_eq_false_iff, Option.isSome_eq_false_iff,
      Option.isNone_iff_eq_none] at empty
    obtain ⟨⟨⟨funds, credits⟩, call⟩, rwSet⟩ := empty
    simp [Chain.commitTxs, funds, credits, call, rwSet]

theorem Isolated.paired_commitTxs (isolated : Isolated shardID vm evm₀ es n)
    (traced : Traced shardID es n) (ok : Disciplined es) {txID : TxID}
    (fresh : n.chain.isCommitProcessed txID = false)
    (votes : n.VotedYes txID ∨ n.chain.hasData txID = false) :
    Paired none (n.chain.commitTxs txID) := by
  rcases isolated.voted_or_empty traced fresh votes with ⟨t, known, rfl, held⟩ | empty
  · have recorded : n.chain.getPendingRwSet t.id = some (t.localRwSet shardID) := held.recorded
    simp only [Chain.commitTxs, recorded, Option.toList_some]
    rw [List.append_assoc]
    refine Paired.append (paired_of_forall fun tx member => ?_) ?_
    · simp only [List.mem_append, List.mem_map] at member
      rcases member with ⟨_, -, rfl⟩ | ⟨_, -, rfl⟩ <;> rfl
    · -- the write set, if there is one, and the finalization have the same entries
      by_cases empty : t.localRwSet shardID = []
      · cases found : n.chain.getPendingCall t.id with
        | none => simp [empty, Paired]
        | some call =>
            obtain ⟨known', id⟩ := traced.tables.calls t.id call found
            simp [ok.unique known' known id, traced.shard, empty, Paired]
      · cases found : n.chain.getPendingCall t.id with
        | none => simp [empty, Paired, opens, finalizeTx, crossTx]
        | some call =>
            obtain ⟨known', id⟩ := traced.tables.calls t.id call found
            simp [ok.unique known' known id, traced.shard, empty, Paired, opens, writeSetTx,
              finalizeTx, crossTx]
  · rw [empty]
    rfl

theorem Isolated.sequence_step (isolated : Isolated shardID vm evm₀ es n)
    (traced : Traced shardID es n) (ok : Disciplined (es ++ [e])) (votes : CommittedAfterVote n e)
    (taken : Taken vm n e n') : Paired n'.half (effects n'.outstanding) := by
  -- events of an idle shard only lengthen the queue
  have idle_queue : ∀ (c : Chain) (more : List Transaction), n.work = none →
      c.currentTxs = n.chain.currentTxs ++ more → Paired none (effects more) →
      Paired (Node.half { n with chain := c }) (effects (Node.outstanding { n with chain := c })) := by
    intro c more idle queue new
    have old := isolated.sequence
    rw [half_of_idle idle, Node.outstanding_of_idle idle] at old
    rw [half_of_idle (n := { n with chain := c }) idle,
      Node.outstanding_of_idle (n := { n with chain := c }) idle]
    show Paired none (effects c.currentTxs)
    rw [queue, effects_append]
    exact old.append new
  cases taken with
  | decided txID committed idle fresh =>
      refine idle_queue _ _ idle rfl ?_
      have unlock : effects [crossTx .unlock txID] = [] := rfl
      rw [Chain.decisionTxs, effects_append, unlock, List.append_nil]
      cases committed with
      | true =>
          rw [if_pos rfl, effects_commitTxs]
          exact isolated.paired_commitTxs traced ok.of_append fresh (votes fresh)
      | false =>
          simp only [Bool.false_eq_true, if_false, Chain.abortTxs]
          split <;> rfl
  | ordered tx idle involved =>
      refine idle_queue _ [lockTx n.chain.shardID tx] idle ?_ rfl
      exact congrArg (· ++ _) (currentTxs_noteOrder ..)
  | submitted tx idle kind unnamed =>
      refine idle_queue _ _ idle rfl (paired_of_forall fun tx' member => ?_)
      rw [List.mem_singleton.1 (List.mem_of_mem_filter member)]
      simp [opens, kind]
  | begun idle =>
      have stable := filter_byKey (fun tx : Transaction => tx.txType.priority)
        (fun tx => tx.txType.priority = 1) (fun a b first second => by simp_all) n.chain.currentTxs
      have old := isolated.sequence
      rw [half_of_idle idle, Node.outstanding_of_idle idle] at old
      show Paired none (effects (byKey _ _))
      rw [effects, stable]
      exact old
  | skipped tx rest successful busy reason =>
      have unwritten : ¬Writes tx := fun writes => writes.not_skipped reason
      have tail := isolated.sequence_tail traced busy
      rw [opens, if_neg fun kind => unwritten (Or.inl kind),
        ← isolated.half_of_not_writes traced busy unwritten] at tail
      simpa [Node.half, Node.outstanding, busy] using tail
  | refused tx rest successful busy kind chain lock result =>
      have unwritten : ¬Writes tx := by simp [Writes, kind]
      have tail := isolated.sequence_tail traced busy
      rw [opens, if_neg fun kind => unwritten (Or.inl kind),
        ← isolated.half_of_not_writes traced busy unwritten] at tail
      simpa [Node.half, Node.outstanding, busy] using tail
  | granted tx rest successful busy kind chain lock =>
      simpa [Node.half, Node.outstanding] using isolated.sequence_tail traced busy
  | applied tx rest successful busy kind free evm ran =>
      simpa [Node.half, Node.outstanding] using isolated.sequence_tail traced busy
  | committed stateRoot successful busy => rfl
  | failed successful busy => exact absurd (by simp) ok.commits
  | _ => exact isolated.sequence

/-! ## Writes that are about to execute -/

theorem Ready.of_frame {t : CrossShardTx} (ready : Ready shardID n t)
    (half : n.half ≠ some t.id)
    (slots : ∀ a s, n.chain.slotHolder a s = some t.id → n'.chain.slotHolder a s = some t.id)
    (storage : ∀ a s, n.chain.slotHolder a s = some t.id →
      n'.evm.storage a s = n.evm.storage a s) : Ready shardID n' t where
  slots p member := slots _ _ (ready.slots p member)
  values _ p member := (storage _ _ (ready.slots p member)).trans (ready.values half p member)

/-- Inside a block: what the executed head leaves ready behind it. -/
theorem Isolated.ready_behind (isolated : Isolated shardID vm evm₀ es n)
    (traced : Traced shardID es n) (confined : StorageConfined vm)
    (reads : ∀ t ∈ ordered es, WritesRead t) {tx tx' : Transaction}
    {rest successful : List Transaction} (busy : n.work = some ⟨tx :: rest, successful⟩)
    (free : n.chain.checkLocalTxLockConflict tx = none) {evm : EVMState}
    (ran : n.evm.executeTx vm tx = .ok evm) (member : tx' ∈ rest) (writes : Writes tx')
    {t : CrossShardTx} (known : t ∈ ordered es) (id : t.id = tx'.crossShardTxID) :
    Ready shardID ⟨n.chain.cleanupAfterExecution tx, evm, some ⟨rest, successful ++ [tx]⟩⟩ t := by
  have waiting := Node.outstanding_of_busy busy
  have ready := isolated.waiting tx' (by simp [waiting, member]) writes t known id
  have first : tx.txType.priority = 1 := by
    have le := traced.sorted.priority_le busy member
    rw [writes.priority_eq] at le
    have pos : 1 ≤ tx.txType.priority := by cases tx.txType <;> decide
    omega
  -- the `Finalize` of an ID is the last of its writes
  have not_final : ¬(tx.txType = .finalize ∧ tx.crossShardTxID = t.id) := by
    rintro ⟨kind, own⟩
    have last : ∀ final ∈ rest, final.txType = .finalize → final.crossShardTxID ≠ t.id :=
      fun final listed kind' same => traced.effect_once busy listed first (by
        rw [label, label, kind, kind', same, own])
    rcases writes with kind' | kind'
    · obtain ⟨final, listed, kind'', same⟩ := (isolated.sequence_tail traced busy).finalize_mem
        (List.mem_filter.2 ⟨member, by simp [kind', TxType.priority]⟩) kind'
      exact last final (List.mem_of_mem_filter listed) kind'' (same.trans id.symm)
    · exact last tx' member kind' id.symm
  by_cases own : tx.txType = .crossWriteSet ∧ tx.crossShardTxID = t.id
  · -- the first of two writes: the slots stay held, and the transaction is half-written
    refine ⟨fun p listed => ?_, fun closed => absurd ?_ closed⟩
    · have same : (n.chain.cleanupAfterExecution tx).slotHolder = n.chain.slotHolder := by
        unfold Chain.cleanupAfterExecution
        rw [own.1]
        dsimp only
        split <;> rfl
      show (n.chain.cleanupAfterExecution tx).slotHolder _ _ = _
      rw [same]
      exact ready.slots p listed
    · simp [Node.half, opens, own.1, own.2]
  · have keeps : ¬Closes t.id tx := by
      rintro ⟨(kind | kind) | kind | kind, same⟩
      · exact own ⟨kind, same⟩
      · exact not_final ⟨kind, same⟩
      · simp [kind, TxType.priority] at first
      · simp [kind, TxType.priority] at first
    refine ready.of_frame (fun half => ?_) (cleanup_of_not_closes keeps).1 fun a s held => ?_
    · obtain ⟨kind, same, -⟩ := isolated.head_of_half traced busy half
      exact not_final ⟨kind, same⟩
    · exact isolated.storage_frame traced confined reads busy free ran held
        fun writes same => keeps ⟨Or.inl writes, same⟩

theorem Isolated.waiting_step (isolated : Isolated shardID vm evm₀ es n)
    (traced : Traced shardID es n) (ok : Disciplined (es ++ [e])) (confined : StorageConfined vm)
    (reads : ∀ t ∈ ordered es, WritesRead t) (votes : CommittedAfterVote n e)
    (taken : Taken vm n e n') (tx : Transaction) (waits : tx ∈ n'.outstanding) (writes : Writes tx)
    (t : CrossShardTx) (known' : t ∈ ordered (es ++ [e])) (id : t.id = tx.crossShardTxID) :
    Ready shardID n' t := by
  have commits : e ≠ .commitError := fun same => ok.commits (by simp [same])
  rcases taken.mem_outstanding commits waits with before | new
  · have known : t ∈ ordered es := by
      obtain ⟨t', known, -, caused⟩ := (traced.queued tx
        (mem_ledger_of_outstanding before)).effect_of_priority writes.priority_eq
      rw [ok.unique known' (mem_ordered_append known _) (id.trans caused.id_eq)]
      exact known
    have ready := isolated.waiting tx before writes t known id
    -- a write never waits behind a `Lock`
    have no_lock : ∀ {tx' : Transaction} {rest successful : List Transaction},
        n.work = some ⟨tx' :: rest, successful⟩ → tx'.txType = .lock → tx ∉ rest := by
      intro tx' rest successful busy kind member
      have le := traced.sorted.priority_le busy member
      rw [writes.priority_eq, kind] at le
      exact absurd le (by decide)
    have idle_half : n.work = none → n.half ≠ some t.id := fun idle => by simp [half_of_idle idle]
    cases taken with
    | stale txID committed idle processed => exact ready
    | decided txID committed idle fresh =>
        exact ready.of_frame (idle_half idle) (fun _ _ held => held) fun _ _ _ => rfl
    | ordered tx' idle involved =>
        refine ready.of_frame (idle_half idle) (fun a s held => ?_) fun _ _ _ => rfl
        show (n.chain.noteOrder tx').slotHolder a s = some t.id
        rw [Chain.noteOrder_eq]
        exact held
    | passed tx' idle foreign => exact ready
    | advanced height idle =>
        exact ready.of_frame (idle_half idle) (fun _ _ held => held) fun _ _ _ => rfl
    | submitted tx' idle kind unnamed =>
        exact ready.of_frame (idle_half idle) (fun _ _ held => held) fun _ _ _ => rfl
    | begun idle =>
        exact ready.of_frame (idle_half idle) (fun _ _ held => held) fun _ _ _ => rfl
    | skipped tx' rest successful busy reason =>
        have closed := isolated.half_of_not_writes traced busy fun writes =>
          writes.not_skipped reason
        exact ready.of_frame (by simp [closed]) (fun _ _ held => held) fun _ _ _ => rfl
    | granted tx' rest successful busy kind chain lock => exact absurd waits (no_lock busy kind)
    | refused tx' rest successful busy kind chain lock result =>
        exact absurd waits (no_lock busy kind)
    | applied tx' rest successful busy kind free evm ran =>
        exact isolated.ready_behind traced confined reads busy free ran waits writes known id
    | committed stateRoot successful busy => cases waits
    | failed successful busy => exact absurd rfl commits
  · obtain ⟨txID, rfl, fresh, effect⟩ := effect_of_mem_added taken new writes.priority_eq
    have known : t ∈ ordered es := by simpa [ordered] using known'
    obtain ⟨_, -, same, caused⟩ := effect_of_mem_commitTxs traced.tables traced.shard effect
    rcases isolated.voted_or_empty traced fresh (votes fresh) with ⟨t', known', id', held⟩ | empty
    · have own : t' = t := ok.of_append.unique known' known (by rw [id', id, caused.id_eq, same])
      subst own
      cases taken with
      | stale _ _ idle processed => simp [fresh] at processed
      | decided _ _ idle fresh => exact ⟨held.slots, fun _ => held.values⟩
    · rw [empty] at effect
      cases effect

/-! ## The serial history -/

/-- An event that includes nothing keeps the serial history. -/
theorem Serialized.of_same (serial : Serialized shardID vm evm₀ es n)
    (same : n'.included = n.included) (evm : n'.evm = n.evm) (closed : n.half = none)
    (closed' : n'.half = none) : Serialized shardID vm evm₀ (es ++ [e]) n' := by
  obtain ⟨state, ran, whole, -⟩ := serial
  refine ⟨state, by rw [same, ran], fun _ => evm.trans (whole closed), fun t _ half => ?_⟩
  rw [closed'] at half
  cases half

theorem included_append {tx : Transaction} {rest successful : List Transaction} {c : Chain}
    {evm : EVMState} (busy : n.work = some ⟨tx :: rest, successful⟩) (blocks : c.blocks = n.chain.blocks) :
    Node.included ⟨c, evm, some ⟨rest, successful ++ [tx]⟩⟩ = n.included ++ [tx] := by
  simp [Node.included, busy, blocks]

/-- An executed transaction extends the serial history. -/
theorem Isolated.serial_applied (isolated : Isolated shardID vm evm₀ es n)
    (traced : Traced shardID es n) (ok : Disciplined es) {tx : Transaction}
    {rest successful : List Transaction} (busy : n.work = some ⟨tx :: rest, successful⟩)
    {evm : EVMState} (ran : n.evm.executeTx vm tx = .ok evm) {c : Chain}
    (blocks : c.blocks = n.chain.blocks) :
    Serialized shardID vm evm₀ (es ++ [.execute tx]) ⟨c, evm, some ⟨rest, successful ++ [tx]⟩⟩ := by
  obtain ⟨state, reached, whole, part⟩ := isolated.serial
  have waits : tx ∈ n.outstanding := by simp [Node.outstanding_of_busy busy]
  have half' : Node.half ⟨c, evm, some ⟨rest, successful ++ [tx]⟩⟩ = opens tx := by simp [Node.half]
  have extend : ∀ {state' : EVMState}, serialStep vm state tx = some state' →
      run (serialStep vm) evm₀ (Node.included ⟨c, evm, some ⟨rest, successful ++ [tx]⟩⟩) =
        some state' := by
    intro state' stepped
    rw [included_append busy blocks]
    exact run_concat_eq_some.2 ⟨state, reached, stepped⟩
  by_cases writes : Writes tx
  · obtain ⟨t, known, -, caused⟩ := (traced.queued tx
      (mem_ledger_of_outstanding waits)).effect_of_priority writes.priority_eq
    have ready := isolated.waiting tx waits writes t known caused.id_eq.symm
    have closed_of_other : tx.txType ≠ .finalize → n.half = none := fun other =>
      Option.eq_none_iff_forall_ne_some.2 fun _ half =>
        other (isolated.head_of_half traced busy half).1
    cases caused with
    | debit source => rcases writes with kind | kind <;> cases kind
    | credit home => rcases writes with kind | kind <;> cases kind
    | writeSet =>
        cases ran
        have closed := closed_of_other (by rintro ⟨⟩)
        have same := whole closed
        refine ⟨state, extend rfl, fun closed' => ?_, fun t' known' half => ?_⟩
        · rw [half'] at closed'
          cases closed'
        · rw [half'] at half
          have known : t' ∈ ordered es := by simpa [ordered] using known'
          obtain rfl : t = t' := ok.unique ‹_› known (Option.some.inj half)
          rw [← same]
          exact ⟨ready.values (by simp [closed]), rfl⟩
    | finalize =>
        cases ran
        have serial : ∀ {e : EVMState}, readsMatch e (t.localRwSet shardID) →
            serialStep vm e (finalizeTx t.id (t.localRwSet shardID)) =
              some (e.applyWriteSet (t.localRwSet shardID)) := fun matched => if_pos matched
        refine ⟨state.applyWriteSet (t.localRwSet shardID), extend (serial ?_), fun _ => ?_,
          fun t' _ half => absurd (half'.symm.trans half) (Option.some_ne_none _).symm⟩
        · cases half : n.half with
          | none =>
              rw [← whole half]
              exact ready.values (by simp [half])
          | some txID =>
              obtain ⟨-, rfl, -⟩ := isolated.head_of_half traced busy half
              exact (part t known half).1
        · cases half : n.half with
          | none => exact congrArg (EVMState.applyWriteSet · _) (whole half)
          | some txID =>
              obtain ⟨-, rfl, -⟩ := isolated.head_of_half traced busy half
              show n.evm.applyWriteSet (t.localRwSet shardID) = _
              rw [(part t known half).2, EVMState.applyWriteSet_idem]
  · have closed := isolated.half_of_not_writes traced busy writes
    have same := whole closed
    have quiet : opens tx = none := if_neg fun kind => writes (Or.inl kind)
    refine ⟨evm, extend ?_, fun _ => rfl, fun t _ half => ?_⟩
    · rw [← same]
      unfold serialStep
      split
      · rename_i kind
        exact absurd (Or.inl kind) writes
      · rename_i kind
        exact absurd (Or.inr kind) writes
      · rw [ran]
    · rw [half', quiet] at half
      cases half

theorem Isolated.serial_step (isolated : Isolated shardID vm evm₀ es n)
    (traced : Traced shardID es n) (ok : Disciplined (es ++ [e])) (taken : Taken vm n e n') :
    Serialized shardID vm evm₀ (es ++ [e]) n' := by
  have serial := isolated.serial
  have idle_same : ∀ {c : Chain}, n.work = none → c.blocks = n.chain.blocks →
      Serialized shardID vm evm₀ (es ++ [e]) { n with chain := c } := by
    intro c idle blocks
    exact serial.of_same (by simp [Node.included, blocks]) rfl (half_of_idle idle)
      (half_of_idle idle)
  -- what is not included changes nothing in the serial history
  have dropped : ∀ {tx : Transaction} {rest successful : List Transaction} {c : Chain},
      n.work = some ⟨tx :: rest, successful⟩ → ¬Writes tx → c.blocks = n.chain.blocks →
      Serialized shardID vm evm₀ (es ++ [e]) ⟨c, n.evm, some ⟨rest, successful⟩⟩ := by
    intro tx rest successful c busy unwritten blocks
    have closed := isolated.half_of_not_writes traced busy unwritten
    refine serial.of_same (by simp [Node.included, busy, blocks]) rfl closed ?_
    simpa [Node.half, busy] using closed
  cases taken with
  | stale txID committed idle processed => exact idle_same idle rfl
  | decided txID committed idle fresh => exact idle_same idle rfl
  | ordered tx idle involved =>
      exact idle_same idle (congrArg Chain.Steady.blocks (n.chain.steady_noteOrder tx))
  | passed tx idle foreign => exact idle_same idle rfl
  | advanced height idle => exact idle_same idle rfl
  | submitted tx idle kind unnamed => exact idle_same idle rfl
  | begun idle =>
      exact serial.of_same (by simp [Node.included, idle]) rfl (half_of_idle idle) rfl
  | skipped tx rest successful busy reason =>
      exact dropped busy (fun writes => writes.not_skipped reason) rfl
  | refused tx rest successful busy kind chain lock result =>
      exact dropped busy (by simp [Writes, kind]) (congrArg Chain.Steady.blocks lock.steady)
  | granted tx rest successful busy kind chain lock =>
      exact isolated.serial_applied traced ok.of_append busy (by simp [EVMState.executeTx, kind])
        (congrArg Chain.Steady.blocks lock.steady)
  | applied tx rest successful busy kind free evm ran =>
      exact isolated.serial_applied traced ok.of_append busy ran
        (congrArg Chain.Steady.blocks (n.chain.steady_cleanupAfterExecution tx))
  | committed stateRoot successful busy =>
      have closed : n.half = none := by
        have paired := isolated.sequence
        rw [Node.outstanding_of_busy busy] at paired
        exact paired
      exact serial.of_same (by simp [Node.included, busy, BlockState.finish]) rfl closed rfl
  | failed successful busy => exact absurd (by simp) ok.commits

end Step

/-! ## Runs -/

theorem isolated_start (shardID : Int) (vm : VM) (evm : EVMState) :
    Isolated shardID vm evm [] (Node.start shardID evm) where
  voted txID vote := by
    rcases vote with yes | ⟨block, member, yes⟩
    · simp [Node.start, Chain.newChain] at yes
    · rw [List.mem_singleton.1 member] at yes
      simp at yes
  waiting tx waits := by simp [Node.outstanding, Node.start, Chain.newChain] at waits
  sequence := rfl
  serial := ⟨evm, rfl, fun _ => rfl, fun t known => by cases known⟩

theorem Isolated.step {shardID : Int} {vm : VM} {evm : EVMState} {es : List Event} {e : Event}
    {n n' : Node} (isolated : Isolated shardID vm evm es n) (traced : Traced shardID es n)
    (confined : StorageConfined vm) (ok : Disciplined (es ++ [e]))
    (reads : ∀ t ∈ ordered es, WritesRead t) (votes : CommittedAfterVote n e)
    (taken : Taken vm n e n') : Isolated shardID vm evm (es ++ [e]) n' where
  voted := isolated.voted_step traced ok.of_append confined reads taken
  waiting := isolated.waiting_step traced ok confined reads votes taken
  sequence := isolated.sequence_step traced ok votes taken
  serial := isolated.serial_step traced ok taken

/-- The runs the isolation of prepared transactions is about. -/
structure Prepared (shardID : Int) (vm : VM) (evm : EVMState) (es : List Event) : Prop where
  disciplined : Disciplined es
  reads : ∀ t ∈ ordered es, WritesRead t
  votes : Along (step vm) CommittedAfterVote (Node.start shardID evm) es

theorem Prepared.of_append {shardID : Int} {vm : VM} {evm : EVMState} {es fs : List Event}
    (ok : Prepared shardID vm evm (es ++ fs)) : Prepared shardID vm evm es where
  disciplined := ok.disciplined.of_append
  reads t known := ok.reads t (mem_ordered_append known fs)
  votes := ok.votes.of_append

theorem isolated_of_run {shardID : Int} {vm : VM} {evm : EVMState} {es : List Event} {n : Node}
    (confined : StorageConfined vm) (ok : Prepared shardID vm evm es)
    (reached : run (step vm) (Node.start shardID evm) es = some n) :
    Isolated shardID vm evm es n :=
  run_invariant (Prepared shardID vm evm) (fun _ _ ok => ok.of_append)
    (Isolated shardID vm evm) (isolated_start shardID vm evm)
    (fun _ _ _ _ ok before isolated stepped =>
      isolated.step (traced_of_run ok.of_append.disciplined before) confined ok.disciplined
        ok.of_append.reads (ok.votes.last before) (taken_of_step stepped)) es n ok reached

/-- **The window.**  From a granted `Lock` to the first write, unlock or abort of its
transaction, the read set stays held. -/
theorem held_of_granted {shardID : Int} {vm : VM} {evm : EVMState} {t : CrossShardTx}
    (confined : StorageConfined vm) {pre mid : List Event} {m n : Node}
    (ok : Prepared shardID vm evm (pre ++ .execute (lockTx shardID t) :: mid))
    (locked : run (step vm) (Node.start shardID evm) pre = some m)
    (granted : (m.chain.executeLock m.evm (lockTx shardID t)).2 = true)
    (unclosed : ∀ tx ∈ executed mid, ¬Closes t.id tx)
    (reached : run (step vm) (Node.start shardID evm)
      (pre ++ .execute (lockTx shardID t) :: mid) = some n) : Held shardID n t := by
  induction mid using List.reverseRecOn generalizing n with
  | nil =>
      obtain ⟨m', before, stepped⟩ := run_concat_eq_some.1 reached
      rw [locked] at before
      cases before
      cases taken_of_step stepped with
      | granted _ rest successful busy kind chain lock => exact held_of_lock lock
      | refused _ rest successful busy kind chain lock result =>
          rw [result] at granted
          cases granted
      | skipped _ rest successful busy reason =>
          rcases reason with conflict | ⟨kind, -⟩
          · simp [Chain.checkLocalTxLockConflict, lockTx, crossTx] at conflict
          · exact absurd rfl kind
      | applied _ rest successful busy kind free evm ran => exact absurd rfl kind
  | append_singleton mid e ih =>
      rw [← List.cons_append, ← List.append_assoc] at ok reached
      obtain ⟨n', before, stepped⟩ := run_concat_eq_some.1 reached
      have held : Held shardID n' t :=
        ih ok.of_append (fun tx member => unclosed tx (by simp [member])) before
      have traced := traced_of_run ok.of_append.disciplined before
      refine held.step (isolated_of_run confined ok.of_append before) traced confined
        ok.of_append.reads (taken_of_step stepped) ?_
      rintro tx rfl
      refine ⟨unclosed tx (by simp [executed]), fun again => ?_⟩
      -- a second `Lock` of the same ID would be the first one again
      have waits := (taken_of_step stepped).waits
      have done : lockTx shardID t ∈ executed (pre ++ .execute (lockTx shardID t) :: mid) := by
        simp [executed]
      obtain ⟨t₁, known₁, -, first⟩ := traced.lock_of_kind (List.mem_append_left _ done) rfl
      obtain ⟨t₂, known₂, -, rfl⟩ := traced.lock_of_kind (mem_ledger_of_outstanding waits) again.1
      have ids : t₁.id = t₂.id :=
        (congrArg Transaction.crossShardTxID first).symm.trans again.2.symm
      rw [ok.of_append.disciplined.unique known₁ known₂ ids] at first
      refine traced.lock_not_executed ok.of_append.disciplined waits again.1 ?_
      rw [← first]
      exact done

/-- **Prepared transactions are isolated.**  In a run with distinct IDs and successful commits,
where write sets are among the read sets, commits follow the vote of this shard and calls
write storage only at their callee:

* from a granted `Lock` to the first write, unlock or abort of its transaction, every slot of
  its read set is held by it and has the value that was validated;
* the shard's blocks are a serial history, in which every committed transaction is one step
  at its `Finalize` that validates its whole read set and applies its whole write set, and
  between blocks the shard's state is the end of that history. -/
theorem prepared_transactions_isolated {shardID : Int} {vm : VM} {evm : EVMState}
    {es : List Event} {n : Node} (confined : StorageConfined vm) (ok : Prepared shardID vm evm es)
    (reached : run (step vm) (Node.start shardID evm) es = some n) :
    (∀ t pre mid m, es = pre ++ .execute (lockTx shardID t) :: mid →
      run (step vm) (Node.start shardID evm) pre = some m →
      (m.chain.executeLock m.evm (lockTx shardID t)).2 = true →
      (∀ tx ∈ executed mid, ¬Closes t.id tx) →
      ∀ p ∈ readItems (t.localRwSet shardID), n.chain.slotHolder p.1 p.2.slot = some t.id ∧
        n.evm.getStorageAt p.1 p.2.slot = bytesToHash p.2.value) ∧
    ∃ state, run (serialStep vm) evm n.included = some state ∧ (n.work = none → n.evm = state) := by
  refine ⟨?_, ?_⟩
  · rintro t pre mid m rfl locked granted unclosed p member
    have held := held_of_granted confined ok locked granted unclosed reached
    exact ⟨held.slots p member, held.values p member⟩
  · obtain ⟨state, serial, whole, -⟩ := (isolated_of_run confined ok reached).serial
    exact ⟨state, serial, fun idle => whole (half_of_idle idle)⟩

namespace IsolationPole

def alice : Address := 0x100
def vault : Address := 0x401

/-- Every call sets slot 7 of its callee to 5. -/
def pokeVM : VM := ⟨fun e _ callee _ _ _ => .ok (e.setStorageAt callee 7 5)⟩

def empty : EVMState := ⟨fun _ => 0, fun _ _ => 0, fun _ => []⟩

def vaultEntry : RwVariable := ⟨vault, ⟨1⟩, [⟨7, []⟩], [⟨7, [], [9]⟩]⟩

/-- A call from shard 0 that reads 0 in slot 7 of the vault and writes 9 there. -/
def deposit : CrossShardTx where
  id := "tx-1"
  fromShard := 0
  fromAddr := alice
  toAddr := vault
  value := none
  data := [1]
  rwSet := [vaultEntry]

def poke : Transaction := { fromAddr := alice, toAddr := vault, value := none, data := [1] }

/-- A local call that comes while the vault is locked, and the same call after the deposit. -/
def deposited : List Event :=
  [.order deposit, .beginBlock, .execute (lockTx 1 deposit), .commitBlock 0,
    .submit poke, .beginBlock, .execute poke, .commitBlock 0,
    .decision "tx-1" true, .beginBlock, .execute (writeSetTx "tx-1" [vaultEntry]),
    .execute (finalizeTx "tx-1" [vaultEntry]), .execute (crossTx .unlock "tx-1"), .commitBlock 0,
    .submit poke, .beginBlock, .execute poke, .commitBlock 0]

theorem pokeVM_confined : StorageConfined pokeVM := by
  rintro e caller callee data gas value e' ⟨⟩ a other
  funext s
  simp [other]

end IsolationPole

open IsolationPole in
/-- The blocked call changes nothing, the deposit finds the value it read, and the second
call finds the deposit. -/
theorem deposited_isolated :
    ∃ n, run (step pokeVM) (Node.start 1 empty) deposited = some n ∧
      n.included.map Transaction.txType = [.lock, .crossWriteSet, .finalize, .unlock, .localTx] ∧
      ∃ state, run (serialStep pokeVM) empty n.included = some state ∧
        (n.work = none → n.evm = state) := by
  refine ⟨_, rfl, by decide +kernel, ?_⟩
  have ok : Prepared 1 pokeVM empty deposited := by
    refine ⟨⟨by decide, by decide⟩, ?_, ?_⟩
    · intro t known
      cases List.mem_singleton.1 known
      unfold WritesRead
      decide
    refine .cons trivial rfl (.cons trivial rfl (.cons trivial rfl (.cons trivial rfl (.cons trivial
      rfl (.cons trivial rfl (.cons trivial rfl (.cons trivial rfl (.cons ?_ rfl (.cons trivial rfl
      (.cons trivial rfl (.cons trivial rfl (.cons trivial rfl (.cons trivial rfl (.cons trivial rfl
      (.cons trivial rfl (.cons trivial rfl (.cons trivial rfl trivial)))))))))))))))))
    exact fun _ => Or.inl ⟨_, List.mem_cons_of_mem _ (List.mem_cons_self ..), by decide +kernel⟩
  exact (prepared_transactions_isolated pokeVM_confined ok rfl).2

namespace IsolationPole

def safe : Address := 0x400
def shop : Address := 0x408

/-- Every call adds one to slot 7 of its callee. -/
def bumpVM : VM where
  call e _ callee _ _ _ := .ok (e.setStorageAt callee 7 (e.getStorageAt callee 7 + 1))

def funded : EVMState := ⟨fun a => if a = alice then 5 else 0, fun _ _ => 0, fun _ => []⟩

/-- Spends all that alice has and reads slot 7 of the safe on the same shard. -/
def payment : CrossShardTx where
  id := "tx-1"
  fromShard := 0
  fromAddr := alice
  toAddr := vault
  value := some 5
  rwSet := [⟨safe, ⟨0⟩, [⟨7, []⟩], []⟩]

def bump : Transaction := { fromAddr := alice, toAddr := shop, value := none, data := [1] }

/-- The first attempt to produce a block fails at its commit. -/
def attempted : List Event :=
  [.order payment, .submit bump, .beginBlock, .execute (lockTx 0 payment), .execute bump,
    .commitError]

/-- The second attempt executes the same queue once more. -/
def retried : List Event :=
  attempted ++ [.beginBlock, .execute (lockTx 0 payment), .execute bump, .commitBlock 0]

theorem bumpVM_confined : StorageConfined bumpVM := by
  rintro e caller callee data gas value e' ⟨⟩ a other
  funext s
  simp [other]

end IsolationPole

open IsolationPole in
/-- A failed commit undoes the isolation.  The run meets all other conditions.  The granted `Lock`
is executed again, finds the funds reserved by itself and gives its slot back, with no write, unlock
or abort in between; and the local call that the block lists once has been applied twice. -/
theorem failed_commit_frees_read_set :
    StorageConfined bumpVM ∧ ((ordered retried).map CrossShardTx.id).Nodup ∧
    (∀ t ∈ ordered retried, WritesRead t) ∧
    Along (step bumpVM) CommittedAfterVote (Node.start 0 funded) retried ∧
    (∀ tx ∈ executed (retried.drop 4), ¬Closes payment.id tx) ∧
    ((run (step bumpVM) (Node.start 0 funded) (retried.take 3)).map fun m =>
        (m.chain.executeLock m.evm (lockTx 0 payment)).2) = some true ∧
    ((run (step bumpVM) (Node.start 0 funded) attempted).map fun n =>
        n.chain.slotHolder safe 7) = some (some "tx-1") ∧
    ((run (step bumpVM) (Node.start 0 funded) retried).map fun n =>
        (n.chain.slotHolder safe 7, n.included, n.evm.getStorageAt shop 7)) =
      some (none, [bump], 2) ∧
    ((run (serialStep bumpVM) funded [bump]).map fun e => e.getStorageAt shop 7) = some 1 := by
  refine ⟨bumpVM_confined, by decide, ?_, ?_, ?_, ?_⟩
  · intro t known
    cases List.mem_singleton.1 known
    unfold WritesRead
    decide
  · -- nothing is decided in this run
    rw [along_iff]
    intro pre e post n split reached
    have member : e ∈ retried := split ▸ List.mem_append_right _ List.mem_cons_self
    cases e with
    | decision txID commit => simp [retried, attempted] at member
    | _ => trivial
  · unfold Closes
    decide
  · decide +kernel

end CrossShard.Shard
