/-
# Shard.ResultOrder -- the enumeration order of the decisions of a block does not matter

`processOrchestratorBlock` ranges over `TpcResult`, a map whose enumeration order is random.
The order decides in which order debits, credits, write sets, unlocks and aborts are queued,
and a stable sort keeps it within a priority.  It cannot be seen in the state all the same:
debits that are covered together are covered in every order, write sets of different
transactions name different slots, and clean-ups commute.  Covered means what `Debit` takes: a
negative reservation, which `/prepare` accepts, is debited as a huge amount.

* `processOrchestratorBlock_eq`: what the two loops leave, with the queue apart.
* `executeAll_shifted`: executing transactions does not read the queue.
* `executeAll_decided`: a block of decisions, old queue and new `Lock`s, in closed form.
* `result_order_unobservable`: two enumerations, one state.
* `negative_reservation_shows_order`: a negative reservation, where the order shows.
-/
import CrossShard.Shard.Effects

namespace CrossShard.Shard

set_option autoImplicit false

open CrossShard.Library CrossShard.Protocol

/-! ## The loop does not read the queue -/

namespace Chain

def withQueue (c : Chain) (queue : List Transaction) : Chain := { c with currentTxs := queue }

section WithQueue

variable (c : Chain) (queue : List Transaction)

theorem clearLockLocked_withQueue (txID : TxID) :
    (c.withQueue queue).clearLockLocked txID = (c.clearLockLocked txID).withQueue queue := by
  rw [clear_funds, clear_funds]
  rfl

theorem clearAllMetadata_withQueue (txID : TxID) :
    (c.withQueue queue).clearAllMetadata txID = (c.clearAllMetadata txID).withQueue queue := by
  rw [clearAllMetadata, clearLockLocked_withQueue]
  rfl

theorem clearPendingCreditForAddressLocked_withQueue (txID : TxID) (addr : Address) :
    (c.withQueue queue).clearPendingCreditForAddressLocked txID addr =
      (c.clearPendingCreditForAddressLocked txID addr).withQueue queue := by
  rw [clear_creditTo, clear_creditTo]
  rfl

theorem cleanupAfterExecution_withQueue (tx : Transaction) :
    (c.withQueue queue).cleanupAfterExecution tx =
      (c.cleanupAfterExecution tx).withQueue queue := by
  unfold cleanupAfterExecution
  dsimp only
  split
  · rfl
  · split
    · exact clearLockLocked_withQueue ..
    · exact clearPendingCreditForAddressLocked_withQueue ..
    · rfl
    · exact clearAllMetadata_withQueue ..
    · rfl
    · rfl
    · exact clearAllMetadata_withQueue
        ((c.unlockAllSlotsForTx tx.crossShardTxID).clearPendingRwSet tx.crossShardTxID) queue _
    · rfl

theorem cleanupAfterFailure_withQueue (tx : Transaction) :
    (c.withQueue queue).cleanupAfterFailure tx = (c.cleanupAfterFailure tx).withQueue queue := by
  unfold cleanupAfterFailure
  split
  · rw [clearAllMetadata_withQueue]
    rfl
  · rfl

theorem lockSlot_withQueue (txID : TxID) (addr : Address) (slot : Hash) :
    (c.withQueue queue).lockSlot txID addr slot =
      (c.lockSlot txID addr slot).map fun c' => c'.withQueue queue := by
  unfold lockSlot
  dsimp only [withQueue]
  split
  · split <;> rfl
  · rfl

theorem unlockSlot_withQueue (txID : TxID) (addr : Address) (slot : Hash) :
    (c.withQueue queue).unlockSlot txID addr slot =
      (c.unlockSlot txID addr slot).withQueue queue := by
  unfold unlockSlot
  dsimp only [withQueue]
  split
  · rfl
  · split <;> rfl

theorem rollback_withQueue (txID : TxID) (lockedSlots : List SlotKey) :
    (c.withQueue queue).rollback txID lockedSlots =
      (c.rollback txID lockedSlots).withQueue queue := by
  unfold rollback
  induction lockedSlots generalizing c with
  | nil => rfl
  | cons key rest ih => rw [List.foldl_cons, List.foldl_cons, unlockSlot_withQueue, ih]

theorem lockReadItems_withQueue (evm : EVMState) (txID : TxID) (lockedSlots : List SlotKey)
    (items : List (Address × ReadSetItem)) :
    lockReadItems evm txID (c.withQueue queue) lockedSlots items =
      ((lockReadItems evm txID c lockedSlots items).1.withQueue queue,
        (lockReadItems evm txID c lockedSlots items).2) := by
  induction items generalizing c lockedSlots with
  | nil => rfl
  | cons item rest ih =>
      obtain ⟨addr, item⟩ := item
      simp only [lockReadItems, rollback_withQueue, lockSlot_withQueue]
      split
      · rfl
      · cases c.lockSlot txID addr item.slot with
        | error err => rfl
        | ok c' => exact ih c' _

theorem validateAndLockReadSet_withQueue (txID : TxID) (rwSet : List RwVariable)
    (evm : EVMState) :
    (c.withQueue queue).validateAndLockReadSet txID rwSet evm =
      ((c.validateAndLockReadSet txID rwSet evm).1.withQueue queue,
        (c.validateAndLockReadSet txID rwSet evm).2) := by
  unfold validateAndLockReadSet
  rw [lockReadItems_withQueue]
  obtain ⟨c', err⟩ := lockReadItems evm txID c [] (readItems rwSet)
  cases err <;> rfl

theorem reserveFunds_withQueue (evm : EVMState) (tx : Transaction) :
    (c.withQueue queue).reserveFunds evm tx =
      (c.reserveFunds evm tx).map fun c' => c'.withQueue queue := by
  have reserved : (c.withQueue queue).getLockedAmountForAddress tx.fromAddr =
      c.getLockedAmountForAddress tx.fromAddr := rfl
  simp only [reserveFunds, reserved]
  split
  · split <;> rfl
  · rfl

theorem executeLock_withQueue (evm : EVMState) (tx : Transaction) :
    (c.withQueue queue).executeLock evm tx =
      ((c.executeLock evm tx).1.withQueue queue, (c.executeLock evm tx).2) := by
  unfold executeLock
  rw [reserveFunds_withQueue]
  cases c.reserveFunds evm tx with
  | none => exact congrArg (·, false) (cleanupAfterFailure_withQueue ..)
  | some c₁ =>
      simp only [Option.map_some, validateAndLockReadSet_withQueue]
      obtain ⟨c₂, err⟩ := c₁.validateAndLockReadSet tx.crossShardTxID tx.rwSet evm
      cases err with
      | none => exact congrArg (·, true) (cleanupAfterExecution_withQueue ..)
      | some err =>
          refine congrArg (·, false) ?_
          rw [clearLockLocked_withQueue, cleanupAfterFailure_withQueue]

end WithQueue

end Chain

namespace BlockState

/-- The same moment of a loop that began with another queue, after `before` had entered. -/
def shifted (s : BlockState) (queue before : List Transaction) : BlockState :=
  ⟨s.chain.withQueue queue, s.evm, before ++ s.successfulTxs⟩

theorem executeOne_shifted (vm : VM) (s : BlockState) (queue before : List Transaction)
    (tx : Transaction) :
    (s.shifted queue before).executeOne vm tx =
      (s.executeOne vm tx).map fun s' => s'.shifted queue before := by
  have conflict : (s.chain.withQueue queue).checkLocalTxLockConflict tx =
      s.chain.checkLocalTxLockConflict tx := rfl
  simp only [executeOne, shifted, conflict, Chain.executeLock_withQueue]
  split
  · rfl
  · split
    · obtain ⟨c', included⟩ := s.chain.executeLock s.evm tx
      cases included
      · rfl
      · simp [List.append_assoc]
    · cases s.evm.executeTx vm tx with
      | panic => rfl
      | error err => simp [Chain.cleanupAfterFailure_withQueue]
      | ok evm => simp [Chain.cleanupAfterExecution_withQueue, List.append_assoc]

/-- **Executing transactions does not read the queue.** -/
theorem executeAll_shifted (vm : VM) (s : BlockState) (queue before : List Transaction)
    (txs : List Transaction) :
    executeAll vm (s.shifted queue before) txs =
      (executeAll vm s txs).map fun s' => s'.shifted queue before := by
  induction txs generalizing s with
  | nil => rfl
  | cons tx txs ih =>
      rw [executeAll, executeAll, executeOne_shifted]
      cases s.executeOne vm tx with
      | none => rfl
      | some s' => exact ih s'

end BlockState

/-! ## What an orchestrator block leaves, with the queue apart -/

namespace Chain

/-- What the `TpcResult` loop queues. -/
def decided (c : Chain) (results : List (Σ _ : TxID, Bool)) : List Transaction :=
  results.flatMap fun r => if c.isCommitProcessed r.1 then [] else c.decisionTxs r.1 r.2

/-- The marks after the `TpcResult` loop. -/
def markAll (marks : FMap TxID Bool) (ids : List TxID) : FMap TxID Bool :=
  ids.foldl (fun marks id => marks.set id true) marks

theorem get_markAll (marks : FMap TxID Bool) (ids : List TxID) (x : TxID) :
    (markAll marks ids).get x = if x ∈ ids then some true else marks.get x := by
  unfold markAll
  induction ids generalizing marks with
  | nil => simp
  | cons id ids ih =>
      rw [List.foldl_cons, ih, FMap.get_set]
      by_cases later : x ∈ ids
      · simp [later]
      · simp [later]

theorem markAll_perm (marks : FMap TxID Bool) {ids ids' : List TxID} (perm : ids.Perm ids') :
    markAll marks ids = markAll marks ids' :=
  FMap.ext fun x => by simp only [get_markAll, perm.mem_iff]

theorem foldl_processResult (c : Chain) (results : List (Σ _ : TxID, Bool))
    (nodup : (results.map Sigma.fst).Nodup) :
    results.foldl processResult c =
      { c with
        processedCommits := markAll c.processedCommits (results.map Sigma.fst)
        currentTxs := c.currentTxs ++ c.decided results } := by
  induction results generalizing c with
  | nil => simp [decided, markAll]
  | cons r results ih =>
      obtain ⟨txID, committed⟩ := r
      obtain ⟨absent, nodup⟩ := List.nodup_cons.1 nodup
      rw [List.foldl_cons]
      cases processed : c.isCommitProcessed txID with
      | true =>
          have marked : c.processedCommits.set txID true = c.processedCommits := by
            refine FMap.ext fun x => ?_
            rw [FMap.get_set]
            split
            · rename_i own
              rw [own]
              revert processed
              unfold isCommitProcessed
              cases c.processedCommits.get txID <;> simp
            · rfl
          rw [processResult_of_processed processed, ih c nodup]
          simp [decided, markAll, processed, marked]
      | false =>
          rw [processResult_of_fresh processed, ih _ nodup]
          -- the mark of `txID` does not concern the other results
          have others : ∀ r ∈ results,
              ((c.processedCommits.set txID true).get r.1).getD false = c.isCommitProcessed r.1 := by
            intro r member
            have listed : r.1 ∈ results.map Sigma.fst := List.mem_map_of_mem member
            have different : r.1 ≠ txID := fun same => absent (same ▸ listed)
            rw [FMap.get_set, if_neg different]
            rfl
          have rest : ({ c with
              processedCommits := c.processedCommits.set txID true
              currentTxs := c.currentTxs ++ c.decisionTxs txID committed } : Chain).decided results =
                c.decided results := by
            unfold decided
            refine List.flatMap_congr fun r member => ?_
            show (if ((c.processedCommits.set txID true).get r.1).getD false then []
              else c.decisionTxs r.1 r.2) = _
            rw [others r member]
          rw [rest]
          simp [decided, markAll, processed]

/-- The `Lock` that an order queues, if the shard is involved. -/
def orderTxs (shardID : Int) (tx : CrossShardTx) : List Transaction :=
  if shardID ∈ tx.involvedShards then [lockTx shardID tx] else []

theorem noteOrder_withQueue (c : Chain) (queue : List Transaction) (tx : CrossShardTx) :
    (c.withQueue queue).noteOrder tx = (c.noteOrder tx).withQueue queue := by
  have credit : (c.withQueue queue).noteCredit tx = (c.noteCredit tx).withQueue queue := by
    unfold noteCredit
    show (if 0 < toBigInt tx.value ∧ shardOf tx.toAddr = c.shardID then _ else _) = _
    split <;> rfl
  simp only [noteOrder, credit]
  show (if tx.fromShard ≠ c.shardID ∧ tx.data ≠ [] then _ else _) = _
  split <;> rfl

theorem processOrder_withQueue (c : Chain) (queue : List Transaction) (tx : CrossShardTx) :
    (c.withQueue queue).processOrder tx =
      (c.processOrder tx).withQueue (queue ++ orderTxs c.shardID tx) := by
  unfold orderTxs
  by_cases involved : c.shardID ∈ tx.involvedShards
  · have involved' : (c.withQueue queue).shardID ∈ tx.involvedShards := involved
    rw [processOrder_of_involved involved, processOrder_of_involved involved', noteOrder_withQueue,
      if_pos involved]
    rfl
  · have foreign' : (c.withQueue queue).shardID ∉ tx.involvedShards := involved
    rw [processOrder_of_foreign involved, processOrder_of_foreign foreign', if_neg involved,
      List.append_nil]

theorem shardID_processOrder (c : Chain) (tx : CrossShardTx) :
    (c.processOrder tx).shardID = c.shardID := by
  by_cases involved : c.shardID ∈ tx.involvedShards
  · rw [processOrder_of_involved involved]
    exact congrArg Steady.shardID (c.steady_noteOrder tx)
  · rw [processOrder_of_foreign involved]

theorem foldl_processOrder_withQueue (c : Chain) (queue : List Transaction)
    (orders : List CrossShardTx) :
    orders.foldl processOrder (c.withQueue queue) =
      (orders.foldl processOrder c).withQueue (queue ++ orders.flatMap (orderTxs c.shardID)) := by
  induction orders generalizing c queue with
  | nil => simp
  | cons tx orders ih =>
      rw [List.foldl_cons, processOrder_withQueue, ih, shardID_processOrder, List.foldl_cons,
        List.flatMap_cons, List.append_assoc]

/-- The chain after a block, except for its queue. -/
def recorded (c : Chain) (block : OrchestratorShardBlock) : Chain :=
  (block.ctToOrder.foldl processOrder
    { c with processedCommits := markAll c.processedCommits block.tpcResult.keys }
    ).setLastOrchestratorHeight block.height

/-- **What an orchestrator block leaves.** -/
theorem processOrchestratorBlock_eq {c : Chain} {block : OrchestratorShardBlock}
    (next : c.lastOrchestratorHeight < block.height) :
    c.processOrchestratorBlock block =
      (c.recorded block).withQueue (c.currentTxs ++ c.decided block.tpcResult.entries ++
        block.ctToOrder.flatMap (orderTxs c.shardID)) := by
  rw [processOrchestratorBlock, if_neg (Nat.not_le.2 next)]
  dsimp only
  rw [foldl_processResult c _ block.tpcResult.nodupKeys]
  have orders := foldl_processOrder_withQueue
    { c with processedCommits := markAll c.processedCommits block.tpcResult.keys }
    (c.currentTxs ++ c.decided block.tpcResult.entries) block.ctToOrder
  exact congrArg (fun c' => setLastOrchestratorHeight c' block.height) orders

end Chain

/-! ## The sorted queue -/

/-- The transactions of a list with one priority. -/
def withPriority (k : Nat) (txs : List Transaction) : List Transaction :=
  txs.filter fun tx => tx.txType.priority = k

/-- The part of the decisions that runs before everything else. -/
def settled (txs : List Transaction) : List Transaction := withPriority 1 txs ++ withPriority 2 txs

/-- The part of the decisions that runs after everything else. -/
def aborts (txs : List Transaction) : List Transaction := withPriority 4 txs

section Sorted

variable {queue decided locks : List Transaction}

theorem withPriority_append (k : Nat) (txs txs' : List Transaction) :
    withPriority k (txs ++ txs') = withPriority k txs ++ withPriority k txs' :=
  List.filter_append ..

theorem withPriority_eq_nil {k : Nat} {txs : List Transaction}
    (other : ∀ tx ∈ txs, tx.txType.priority ≠ k) : withPriority k txs = [] :=
  List.filter_eq_nil_iff.2 fun tx member => by
    simpa only [decide_eq_true_eq] using other tx member

theorem withPriority_eq_self {k : Nat} {txs : List Transaction}
    (all : ∀ tx ∈ txs, tx.txType.priority = k) : withPriority k txs = txs :=
  List.filter_eq_self.2 fun tx member => decide_eq_true (all tx member)

theorem Settling.priority {tx : Transaction} (settling : Settling tx) :
    tx.txType.priority = 1 ∨ tx.txType.priority = 2 ∨ tx.txType.priority = 4 := by
  rcases settling with effect | kind | kind
  · exact Or.inl effect.priority_eq
  · exact Or.inr (Or.inl (by rw [kind]; rfl))
  · exact Or.inr (Or.inr (by rw [kind]; rfl))

/-- **The sorted queue**: first what settles decisions, then the old queue with the new `Lock`s,
then the aborts. -/
theorem sort_decided
    (waiting : ∀ tx ∈ queue, tx.txType = .lock ∨ tx.txType = .localTx)
    (settling : ∀ tx ∈ decided, Settling tx) (orders : ∀ tx ∈ locks, tx.txType = .lock) :
    Chain.sortTransactionsByPriority (queue ++ decided ++ locks) =
      settled decided ++
        (withPriority 3 queue ++ locks ++ withPriority 4 queue ++ aborts decided) := by
  have old : ∀ tx ∈ queue, tx.txType.priority = 3 ∨ tx.txType.priority = 4 := by
    intro tx member
    rcases waiting tx member with kind | kind
    · exact Or.inl (by rw [kind]; rfl)
    · exact Or.inr (by rw [kind]; rfl)
  have mid : ∀ tx ∈ decided, tx.txType.priority = 1 ∨ tx.txType.priority = 2 ∨
      tx.txType.priority = 4 := fun tx member => (settling tx member).priority
  have new : ∀ tx ∈ locks, tx.txType.priority = 3 := by
    intro tx member
    rw [orders tx member]
    rfl
  have bound : ∀ tx ∈ queue ++ decided ++ locks, tx.txType.priority < 5 := by
    intro tx member
    rcases List.mem_append.1 member with member | member
    · rcases List.mem_append.1 member with member | member
      · have := old tx member
        omega
      · have := mid tx member
        omega
    · have := new tx member
      omega
  have parts : Chain.sortTransactionsByPriority (queue ++ decided ++ locks) =
      (List.range 5).flatMap fun k => withPriority k (queue ++ decided ++ locks) :=
    byKey_eq_flatMap (fun tx : Transaction => tx.txType.priority) bound
  have noOld : ∀ k < 3, withPriority k queue = [] := fun k small =>
    withPriority_eq_nil fun tx member => by
      have := old tx member
      omega
  have noMid : ∀ k, k = 0 ∨ k = 3 → withPriority k decided = [] := fun k other =>
    withPriority_eq_nil fun tx member => by
      have := mid tx member
      omega
  have noNew : ∀ k ≠ 3, withPriority k locks = [] := fun k other =>
    withPriority_eq_nil fun tx member => by
      have := new tx member
      omega
  rw [parts]
  simp only [List.range_succ, List.range_zero, List.nil_append, List.flatMap_append,
    List.flatMap_cons, List.flatMap_nil, List.append_nil, withPriority_append]
  rw [noOld 0 (by decide), noOld 1 (by decide), noOld 2 (by decide), noMid 0 (Or.inl rfl),
    noMid 3 (Or.inr rfl), noNew 0 (by decide), noNew 1 (by decide), noNew 2 (by decide),
    noNew 4 (by decide), withPriority_eq_self new]
  simp only [settled, aborts, List.nil_append, List.append_nil, List.append_assoc]

theorem sort_eq_settled (settling : ∀ tx ∈ decided, Settling tx) :
    Chain.sortTransactionsByPriority decided = settled decided ++ aborts decided := by
  have sorted : Chain.sortTransactionsByPriority ([] ++ decided ++ []) = _ :=
    sort_decided (List.forall_mem_nil _) settling (List.forall_mem_nil _)
  simpa [withPriority] using sorted

theorem aborted_of_mem {tx : Transaction} (settling : ∀ tx ∈ decided, Settling tx)
    (member : tx ∈ aborts decided) : tx.txType = .crossAbort := by
  obtain ⟨member, last⟩ := List.mem_filter.1 member
  have last := of_decide_eq_true last
  rcases settling tx member with effect | kind | kind
  · rw [effect.priority_eq] at last
    cases last
  · rw [kind] at last
    cases last
  · exact kind

end Sorted

/-! ## Executing a block with decisions -/

theorem foldl_cleanup_withQueue (txs : List Transaction) (c : Chain) (queue : List Transaction) :
    txs.foldl Chain.cleanupAfterExecution (c.withQueue queue) =
      (txs.foldl Chain.cleanupAfterExecution c).withQueue queue := by
  induction txs generalizing c with
  | nil => rfl
  | cons tx txs ih =>
      rw [List.foldl_cons, List.foldl_cons, Chain.cleanupAfterExecution_withQueue, ih]

theorem foldl_effect_aborts {txs : List Transaction}
    (aborted : ∀ tx ∈ txs, tx.txType = .crossAbort) (e : EVMState) :
    txs.foldl EVMState.effect e = e := by
  induction txs generalizing e with
  | nil => rfl
  | cons tx txs ih =>
      have kind := aborted tx List.mem_cons_self
      have still : e.effect tx = e := by simp only [EVMState.effect, kind]
      rw [List.foldl_cons, still, ih fun tx' later => aborted tx' (List.mem_cons_of_mem _ later)]

section Executed

variable {vm : VM} {c : Chain} {evm : EVMState} {queue decided locks : List Transaction}

theorem Solvent.settled (solvent : Solvent decided evm) (settling : ∀ tx ∈ decided, Settling tx) :
    Solvent (settled decided) evm := by
  have sorted := solvent.perm (byKey_perm (fun tx => tx.txType.priority) decided).symm
  rw [← Chain.sortTransactionsByPriority, sort_eq_settled settling] at sorted
  have covered := sorted.covered
  have room := sorted.room
  simp only [List.map_append, List.sum_append] at covered room
  refine ⟨fun tx member => sorted.fits tx (List.mem_append_left _ member), fun a => ?_, fun a => ?_⟩
  · have := covered a
    omega
  · have := room a
    omega

/-- **A block of solvent decisions in closed form.**  The rest of the queue runs on the settled
state; the aborts come last. -/
theorem executeAll_decided (solvent : Solvent decided evm)
    (waiting : ∀ tx ∈ queue, tx.txType = .lock ∨ tx.txType = .localTx)
    (settling : ∀ tx ∈ decided, Settling tx) (orders : ∀ tx ∈ locks, tx.txType = .lock)
    (all : List Transaction) :
    BlockState.executeAll vm ⟨c.withQueue all, evm, []⟩
        (Chain.sortTransactionsByPriority (queue ++ decided ++ locks)) =
      (BlockState.executeAll vm
        ⟨(settled decided).foldl Chain.cleanupAfterExecution c,
          (settled decided).foldl EVMState.effect evm, []⟩
        (withPriority 3 queue ++ locks ++ withPriority 4 queue)).map fun s =>
          ⟨((aborts decided).foldl Chain.cleanupAfterExecution s.chain).withQueue all, s.evm,
            settled decided ++ s.successfulTxs ++ aborts decided⟩ := by
  have early : ∀ tx ∈ settled decided, Settling tx := by
    intro tx member
    rcases List.mem_append.1 member with member | member
    · exact settling tx (List.mem_filter.1 member).1
    · exact settling tx (List.mem_filter.1 member).1
  have late : ∀ tx ∈ aborts decided, tx.txType = .crossAbort := fun tx member =>
    aborted_of_mem settling member
  have first : BlockState.executeAll vm ⟨c.withQueue all, evm, []⟩ (settled decided) =
      some (BlockState.shifted ⟨(settled decided).foldl Chain.cleanupAfterExecution c,
        (settled decided).foldl EVMState.effect evm, []⟩ all (settled decided)) := by
    rw [executeAll_settling early ((solvent.settled settling).pays early),
      foldl_cleanup_withQueue, BlockState.shifted, List.nil_append, List.append_nil]
  rw [sort_decided waiting settling orders, executeAll_append, first, Option.bind_some,
    executeAll_append, BlockState.executeAll_shifted, Option.bind_map]
  cases BlockState.executeAll vm
    ⟨(settled decided).foldl Chain.cleanupAfterExecution c,
      (settled decided).foldl EVMState.effect evm, []⟩
    (withPriority 3 queue ++ locks ++ withPriority 4 queue) with
  | none => rfl
  | some s =>
      have pays : Pays (aborts decided) (s.shifted all (settled decided)).evm :=
        pays_of_no_debit (fun tx member => solvent.fits tx (List.mem_filter.1 member).1)
          fun tx member debit => by rw [late tx member] at debit; cases debit
      show BlockState.executeAll vm (s.shifted all (settled decided)) (aborts decided) = _
      rw [executeAll_settling (fun tx member => Or.inr (Or.inr (late tx member))) pays,
        foldl_effect_aborts late, BlockState.shifted, foldl_cleanup_withQueue, Option.map_some]

/-- A transaction that panics in every state ends the block. -/
theorem executeAll_eq_none {txs : List Transaction} {tx : Transaction} (member : tx ∈ txs)
    (panics : ∀ s : BlockState, s.executeOne vm tx = none) (s : BlockState) :
    BlockState.executeAll vm s txs = none := by
  induction txs generalizing s with
  | nil => cases member
  | cons first txs ih =>
      rw [BlockState.executeAll]
      rcases List.mem_cons.1 member with rfl | later
      · rw [panics, Option.bind_none]
      · exact Option.bind_eq_none_iff.2 fun s' _ => ih later s'

theorem executeOne_of_unfit {tx : Transaction}
    (kind : tx.txType = .crossDebit ∨ tx.txType = .crossCredit)
    (unfit : ¬(toBigInt tx.value).natAbs < 2 ^ 256) (s : BlockState) :
    s.executeOne vm tx = none := by
  have amount : mustFromBig (toBigInt tx.value) = none := if_neg unfit
  have free : s.chain.checkLocalTxLockConflict tx = none := by
    rcases kind with kind | kind <;> simp [Chain.checkLocalTxLockConflict, kind]
  rcases kind with kind | kind <;>
    simp [BlockState.executeOne, free, kind, EVMState.executeTx, EVMState.debit, EVMState.credit,
      amount]

end Executed

/-! ## States in which the order cannot matter -/

/-- What the debit of a reservation takes from `a`. -/
def owed (a : Address) (lock : LockedFunds) : Nat :=
  if lock.address = a then (BitVec.ofInt 256 lock.amount).toNat else 0

/-- What a pending credit gives to `a`. -/
def due (a : Address) (credit : PendingCredit) : Nat :=
  if credit.address = a then (BitVec.ofInt 256 credit.amount).toNat else 0

namespace Chain

/-- The transactions that a block commits here: decided true, and not processed before. -/
def committing (c : Chain) (results : List (Σ _ : TxID, Bool)) : List TxID :=
  (results.filter fun r => r.2 && !c.isCommitProcessed r.1).map Sigma.fst

/-- The reservations are covered, the committing transactions hold the slots they write, their
two write sets agree, their credits fit, and only `Lock`s and local transactions wait. -/
structure Ready (c : Chain) (evm : EVMState) (results : List (Σ _ : TxID, Bool)) : Prop where
  funds : ∀ a, c.locked.total (owed a) ≤ (evm.balance a).toNat
  holds : ∀ x ∈ c.committing results, ∀ rw ∈ (c.getPendingRwSet x).getD [], ∀ w ∈ rw.writeSet,
    c.slotHolder rw.address w.slot = some x
  sets : ∀ x ∈ c.committing results, ∀ call, c.getPendingCall x = some call →
    call.localRwSet c.shardID = (c.getPendingRwSet x).getD []
  credits : ∀ a, (evm.balance a).toNat + ((c.committing results).map fun x =>
    (((c.getPendingCredits x).getD []).map (due a)).sum).sum < 2 ^ 256
  queue : ∀ tx ∈ c.currentTxs, tx.txType = .lock ∨ tx.txType = .localTx

end Chain

section Ready

variable {c : Chain} {evm : EVMState} {results : List (Σ _ : TxID, Bool)} {tx : Transaction}

theorem settling_of_mem_decided (member : tx ∈ c.decided results) : Settling tx := by
  obtain ⟨r, -, member⟩ := List.mem_flatMap.1 member
  split at member
  · cases member
  · exact settling_of_mem_decisionTxs member

/-- An effect in the queue belongs to a committing transaction. -/
theorem mem_decided (member : tx ∈ c.decided results) :
    (∃ x ∈ c.committing results, tx ∈ c.commitTxs x) ∨
      tx.txType = .crossAbort ∧ tx.value = none ∨ tx.txType = .unlock ∧ tx.value = none := by
  obtain ⟨r, listed, member⟩ := List.mem_flatMap.1 member
  split at member
  · cases member
  · rename_i fresh
    rcases mem_decisionTxs member with ⟨yes, effect⟩ | ⟨-, rfl⟩ | rfl
    · refine Or.inl ⟨r.1, List.mem_map_of_mem (List.mem_filter.2 ⟨listed, ?_⟩), effect⟩
      simp [yes, fresh]
    · exact Or.inr (Or.inl ⟨rfl, rfl⟩)
    · exact Or.inr (Or.inr ⟨rfl, rfl⟩)

/-- Only a debit or a credit can be too large. -/
theorem money_of_unfit (member : tx ∈ c.decided results)
    (unfit : ¬(toBigInt tx.value).natAbs < 2 ^ 256) :
    tx.txType = .crossDebit ∨ tx.txType = .crossCredit := by
  have valued : tx.value ≠ none := by
    intro none
    rw [none] at unfit
    exact unfit (by decide)
  rcases mem_decided member with ⟨x, -, effect⟩ | ⟨-, none⟩ | ⟨-, none⟩
  · rcases mem_commitTxs.1 effect with ⟨lock, -, rfl⟩ | ⟨credits, -, credit, -, rfl⟩ |
        ⟨call, -, -, rfl⟩ | ⟨rwSet, -, -, rfl⟩
    · exact Or.inl rfl
    · exact Or.inr rfl
    · exact absurd rfl valued
    · exact absurd rfl valued
  · exact absurd none valued
  · exact absurd none valued

/-- A sum over the queued decisions, transaction by transaction. -/
theorem sum_decided (f : Transaction → Nat)
    (moneyless : ∀ tx : Transaction, tx.txType ≠ .crossDebit → tx.txType ≠ .crossCredit → f tx = 0) :
    ((c.decided results).map f).sum =
      ((c.committing results).map fun x =>
        ((c.locked.get x).toList.map fun lock => f (Chain.debitTx x lock)).sum +
          (((c.pendingCredits.get x).getD []).map fun credit =>
            f (Chain.creditTx x credit)).sum).sum := by
  induction results with
  | nil => rfl
  | cons r results ih =>
      obtain ⟨txID, committed⟩ := r
      have split : c.decided (⟨txID, committed⟩ :: results) =
          (if c.isCommitProcessed txID then [] else c.decisionTxs txID committed) ++
            c.decided results := List.flatMap_cons ..
      rw [split, List.map_append, List.sum_append, ih]
      cases processed : c.isCommitProcessed txID with
      | true => simp [Chain.committing, processed]
      | false =>
          cases committed with
          | true =>
              simp only [Bool.false_eq_true, if_false, sum_decisionTxs f moneyless]
              simp [Chain.committing, processed]
          | false =>
              have still : ((c.decisionTxs txID false).map f).sum = 0 := by
                refine List.sum_eq_zero fun n member => ?_
                obtain ⟨tx, queued, rfl⟩ := List.mem_map.1 member
                rcases mem_decisionTxs queued with ⟨yes, -⟩ | ⟨-, rfl⟩ | rfl
                · cases yes
                · exact moneyless _ nofun nofun
                · exact moneyless _ nofun nofun
              simp [Chain.committing, still]

theorem committing_nodup (c : Chain) (nodup : (results.map Sigma.fst).Nodup) :
    (c.committing results).Nodup :=
  nodup.sublist (List.filter_sublist.map Sigma.fst)

/-- **The decisions of a block are solvent**, unless one of them panics. -/
theorem Chain.Ready.solvent (ready : c.Ready evm results) (nodup : (results.map Sigma.fst).Nodup)
    (fits : ∀ tx ∈ c.decided results, (toBigInt tx.value).natAbs < 2 ^ 256) :
    Solvent (c.decided results) evm where
  fits := fits
  covered a := by
    rw [sum_decided (debitAt a) fun tx noDebit _ => if_neg fun debit => noDebit debit.1]
    refine le_trans (le_of_eq ?_) ((c.locked.sum_le_total (owed a)
      (committing_nodup c nodup)).trans (ready.funds a))
    refine congrArg List.sum (List.map_congr_left fun x _ => ?_)
    have credits : (((c.pendingCredits.get x).getD []).map fun credit =>
        debitAt a (Chain.creditTx x credit)).sum = 0 := by
      refine List.sum_eq_zero fun n member => ?_
      obtain ⟨credit, -, rfl⟩ := List.mem_map.1 member
      exact if_neg fun debit => by cases debit.1
    rw [credits, Nat.add_zero]
    cases c.locked.get x with
    | none => rfl
    | some lock => simp [debitAt, owed, Chain.debitTx, Chain.crossTx, Transaction.amount, toBigInt]
  room a := by
    rw [sum_decided (creditAt a) fun tx _ noCredit => if_neg fun credit => noCredit credit.1]
    refine lt_of_eq_of_lt ?_ (ready.credits a)
    refine congrArg ((evm.balance a).toNat + ·) (congrArg List.sum (List.map_congr_left fun x _ => ?_))
    have debits : ((c.locked.get x).toList.map fun lock =>
        creditAt a (Chain.debitTx x lock)).sum = 0 := by
      refine List.sum_eq_zero fun n member => ?_
      obtain ⟨lock, -, rfl⟩ := List.mem_map.1 member
      exact if_neg fun credit => by cases credit.1
    rw [debits, Nat.zero_add]
    refine congrArg List.sum (List.map_congr_left fun credit _ => ?_)
    simp [creditAt, due, Chain.creditTx, Chain.crossTx, Transaction.amount, toBigInt]

/-- What a queued decision writes, its transaction may write: it holds the slot. -/
theorem Chain.Ready.written (ready : c.Ready evm results) (member : tx ∈ c.decided results)
    {a : Address} {s v : Hash} (writes : written tx a s = some v) :
    ∃ x, c.slotHolder a s = some x ∧
      EVMState.lastWrite ((c.getPendingRwSet x).getD []) a s = some v := by
  have named : ∀ x ∈ c.committing results,
      EVMState.lastWrite ((c.getPendingRwSet x).getD []) a s = some v →
        c.slotHolder a s = some x := by
    intro x commits last
    rcases EVMState.lastWrite_cases ((c.getPendingRwSet x).getD []) a s with
      none | ⟨rw, listed, w, item, rfl, rfl, -⟩
    · rw [none] at last
      cases last
    · exact ready.holds x commits rw listed w item
  rcases mem_decided member with ⟨x, commits, effect⟩ | ⟨kind, -⟩ | ⟨kind, -⟩
  · rcases mem_commitTxs.1 effect with ⟨lock, -, rfl⟩ | ⟨credits, -, credit, -, rfl⟩ |
        ⟨call, found, -, rfl⟩ | ⟨rwSet, found, -, rfl⟩
    · cases writes
    · cases writes
    · have last : EVMState.lastWrite (call.localRwSet c.shardID) a s = some v := writes
      rw [ready.sets x commits call found] at last
      exact ⟨x, named x commits last, last⟩
    · have pending : (c.getPendingRwSet x).getD [] = rwSet := by
        rw [Chain.getPendingRwSet, found, Option.getD_some]
      have last : EVMState.lastWrite ((c.getPendingRwSet x).getD []) a s = some v := by
        rw [pending]
        exact writes
      exact ⟨x, named x commits last, last⟩
  · simp [CrossShard.Shard.written, kind] at writes
  · simp [CrossShard.Shard.written, kind] at writes

/-- **Queued decisions do not write different values to one slot.** -/
theorem Chain.Ready.compatible (ready : c.Ready evm results) {tx' : Transaction}
    (member : tx ∈ c.decided results) (member' : tx' ∈ c.decided results) : Compatible tx tx' := by
  intro a s
  cases first : CrossShard.Shard.written tx a s with
  | none => exact Or.inl rfl
  | some v =>
      cases second : CrossShard.Shard.written tx' a s with
      | none => exact Or.inr (Or.inl rfl)
      | some v' =>
          obtain ⟨x, holder, last⟩ := ready.written member first
          obtain ⟨x', holder', last'⟩ := ready.written member' second
          rw [holder] at holder'
          cases holder'
          rw [last] at last'
          exact Or.inr (Or.inr last')

end Ready

/-! ## Two enumerations -/

/-- Two blocks that differ at most in the order of their transactions. -/
structure SameBlock (block block' : StateShardBlock) : Prop where
  header : { block with txOrdering := [] } = { block' with txOrdering := [] }
  ordering : block.txOrdering.Perm block'.txOrdering

theorem SameBlock.refl (block : StateShardBlock) : SameBlock block block := ⟨rfl, .refl _⟩

/-- Two outcomes of `ProduceBlock` with the same state and the same tables, votes included, that
differ at most in the order of transactions. -/
structure SameOutcome (p p' : Produced) : Prop where
  evm : p.evm = p'.evm
  tables : { p.chain with currentTxs := [], blocks := [] } =
    { p'.chain with currentTxs := [], blocks := [] }
  queue : p.chain.currentTxs.Perm p'.chain.currentTxs
  blocks : List.Forall₂ SameBlock p.chain.blocks p'.chain.blocks
  block : Option.Rel SameBlock p.block p'.block

theorem forall₂_sameBlock_refl (blocks : List StateShardBlock) :
    List.Forall₂ SameBlock blocks blocks :=
  List.forall₂_same.2 fun block _ => .refl block

theorem sameOutcome_refl (p : Option Produced) : Option.Rel SameOutcome p p := by
  cases p with
  | none => exact .none
  | some p =>
      refine .some ⟨rfl, rfl, .refl _, forall₂_sameBlock_refl _, ?_⟩
      cases p.block with
      | none => exact .none
      | some block => exact .some (.refl block)

/-- The end of `ProduceBlock`. -/
def BlockState.produced (s : BlockState) (commit : Option Hash) : Produced :=
  match commit with
  | none => ⟨none, s.chain, s.evm⟩
  | some stateRoot => ⟨some (s.finish stateRoot).1, (s.finish stateRoot).2, s.evm⟩

theorem produceBlock_eq (vm : VM) (c : Chain) (evm : EVMState) (commit : Option Hash) :
    c.produceBlock vm evm commit =
      (BlockState.executeAll vm ⟨c, evm, []⟩ (Chain.sortTransactionsByPriority c.currentTxs)).map
        fun s => s.produced commit := by
  cases commit <;> rfl

/-- Two queues and two orders of execution that end with the same tables. -/
theorem sameOutcome_produced (c : Chain) (evm : EVMState) (commit : Option Hash)
    {queue queue' included included' : List Transaction} (queues : queue.Perm queue')
    (order : included.Perm included') :
    SameOutcome ((BlockState.mk (c.withQueue queue) evm included).produced commit)
      ((BlockState.mk (c.withQueue queue') evm included').produced commit) := by
  cases commit with
  | none => exact ⟨rfl, rfl, queues, forall₂_sameBlock_refl _, .none⟩
  | some stateRoot =>
      have same : SameBlock ((BlockState.mk (c.withQueue queue) evm included).finish stateRoot).1
          ((BlockState.mk (c.withQueue queue') evm included').finish stateRoot).1 := ⟨rfl, order⟩
      refine ⟨rfl, rfl, .refl _, ?_, .some same⟩
      exact List.rel_append (forall₂_sameBlock_refl _) (.cons same .nil)

theorem decided_perm (c : Chain) {results results' : List (Σ _ : TxID, Bool)}
    (perm : results.Perm results') : (c.decided results).Perm (c.decided results') :=
  perm.flatMap_right _

/-- **The enumeration order of `TpcResult` is unobservable.**  From a ready state, processing a
block with its results in any other order and then producing a block ends with the same state,
slot locks, fund locks, pending tables and votes; only orders of transactions can differ. -/
theorem result_order_unobservable (vm : VM) (c : Chain) (evm : EVMState) (commit : Option Hash)
    (block : OrchestratorShardBlock) (results' : AList fun _ : TxID => Bool)
    (ready : c.Ready evm block.tpcResult.entries)
    (perm : block.tpcResult.entries.Perm results'.entries) :
    Option.Rel SameOutcome
      ((c.processOrchestratorBlock block).produceBlock vm evm commit)
      ((c.processOrchestratorBlock { block with tpcResult := results' }).produceBlock vm evm
        commit) := by
  by_cases old : block.height ≤ c.lastOrchestratorHeight
  · have first : c.processOrchestratorBlock block = c := if_pos old
    have second : c.processOrchestratorBlock { block with tpcResult := results' } = c := if_pos old
    rw [first, second]
    exact sameOutcome_refl _
  have next := Nat.not_le.1 old
  let orders := block.ctToOrder.flatMap (Chain.orderTxs c.shardID)
  let decided := c.decided block.tpcResult.entries
  let decided' := c.decided results'.entries
  have order : decided.Perm decided' := decided_perm c perm
  have recorded : c.recorded { block with tpcResult := results' } = c.recorded block := by
    have keys : results'.keys.Perm block.tpcResult.keys := (perm.map Sigma.fst).symm
    simp only [Chain.recorded, Chain.markAll_perm _ keys]
  have other : c.lastOrchestratorHeight <
      (OrchestratorShardBlock.mk block.height results' block.ctToOrder).height := next
  rw [Chain.processOrchestratorBlock_eq next, Chain.processOrchestratorBlock_eq other, recorded,
    produceBlock_eq, produceBlock_eq]
  have queues : (c.currentTxs ++ decided ++ orders).Perm (c.currentTxs ++ decided' ++ orders) :=
    (order.append_left _).append_right _
  show Option.Rel SameOutcome
    ((BlockState.executeAll vm ⟨(c.recorded block).withQueue (c.currentTxs ++ decided ++ orders),
      evm, []⟩ (Chain.sortTransactionsByPriority (c.currentTxs ++ decided ++ orders))).map _)
    ((BlockState.executeAll vm ⟨(c.recorded block).withQueue (c.currentTxs ++ decided' ++ orders),
      evm, []⟩ (Chain.sortTransactionsByPriority (c.currentTxs ++ decided' ++ orders))).map _)
  by_cases fits : ∀ tx ∈ decided, (toBigInt tx.value).natAbs < 2 ^ 256
  · have settling : ∀ tx ∈ decided, Settling tx := fun tx => settling_of_mem_decided
    have settling' : ∀ tx ∈ decided', Settling tx := fun tx => settling_of_mem_decided
    have locks : ∀ tx ∈ orders, tx.txType = .lock := by
      intro tx member
      obtain ⟨t, -, member⟩ := List.mem_flatMap.1 member
      unfold Chain.orderTxs at member
      split at member
      · rw [List.mem_singleton.1 member]
        rfl
      · cases member
    have solvent := ready.solvent block.tpcResult.nodupKeys fits
    rw [executeAll_decided solvent ready.queue settling locks,
      executeAll_decided (solvent.perm order) ready.queue settling' locks]
    -- both runs execute the same list from the same settled state
    have early : (settled decided).Perm (settled decided') :=
      (order.filter _).append (order.filter _)
    have mine : ∀ tx ∈ settled decided, tx ∈ decided := fun tx member =>
      (List.mem_append.1 member).elim (fun member => (List.mem_filter.1 member).1)
        fun member => (List.mem_filter.1 member).1
    rw [← foldl_cleanup_perm early fun tx member => settling tx (mine tx member),
      ← foldl_effect_perm early fun tx member tx' member' =>
        ready.compatible (mine tx member) (mine tx' member')]
    cases BlockState.executeAll vm
      ⟨(settled decided).foldl Chain.cleanupAfterExecution (c.recorded block),
        (settled decided).foldl EVMState.effect evm, []⟩
      (withPriority 3 c.currentTxs ++ orders ++ withPriority 4 c.currentTxs) with
    | none => exact .none
    | some s =>
        have late : (aborts decided).Perm (aborts decided') := order.filter _
        have cleared := foldl_cleanup_perm late
          (fun tx member => settling tx (List.mem_filter.1 member).1) s.chain
        simp only [Option.map_some, ← cleared]
        exact .some (sameOutcome_produced _ _ _ queues ((early.append_right _).append late))
  · obtain ⟨tx, member, unfit⟩ : ∃ tx ∈ decided, ¬(toBigInt tx.value).natAbs < 2 ^ 256 := by
      simpa using fits
    have panics : ∀ s : BlockState, s.executeOne vm tx = none :=
      executeOne_of_unfit (money_of_unfit member unfit) unfit
    have queued : tx ∈ Chain.sortTransactionsByPriority (c.currentTxs ++ decided ++ orders) :=
      (byKey_perm _ _).mem_iff.2 (List.mem_append_left _ (List.mem_append_right _ member))
    have queued' : tx ∈ Chain.sortTransactionsByPriority (c.currentTxs ++ decided' ++ orders) :=
      (byKey_perm _ _).mem_iff.2 (queues.mem_iff.1
        (List.mem_append_left _ (List.mem_append_right _ member)))
    rw [executeAll_eq_none queued panics, executeAll_eq_none queued' panics]
    exact .none

namespace ResultOrderPole

def alice : Address := 0x100
def bob : Address := 0x108
def vault : Address := 0x110

def writing (slot : Hash) (value : UInt8) : List RwVariable :=
  [⟨vault, ⟨0⟩, [⟨slot, []⟩], [⟨slot, [], [value]⟩]⟩]

/-- Two prepared transactions that spend all that alice has and write a slot each, and a queued
local transfer. -/
def prepared : Chain := { Chain.newChain 0 with
  currentTxs := [{ fromAddr := bob, toAddr := alice, value := some 5 }]
  locked := ((∅ : FMap TxID LockedFunds).set "tx-1" ⟨alice, 60⟩).set "tx-2" ⟨alice, 40⟩
  pendingCredits := (∅ : FMap TxID (List PendingCredit)).set "tx-1" [⟨bob, 60⟩]
  slotLocks := (∅ : FMap Address (FMap Hash TxID)).set vault
    (((∅ : FMap Hash TxID).set 1 "tx-1").set 2 "tx-2")
  pendingRwSets := ((∅ : FMap TxID (List RwVariable)).set "tx-1" (writing 1 7)).set "tx-2"
    (writing 2 9) }

def funded : EVMState := ⟨fun a => if a = alice then 100 else 0, fun _ _ => 0, fun _ => []⟩

def vm : VM := ⟨fun e _ _ _ _ _ => .ok e⟩

def empty : AList fun _ : TxID => Bool := ∅
def results : AList fun _ : TxID => Bool := (empty.insert "tx-2" true).insert "tx-1" true
def results' : AList fun _ : TxID => Bool := (empty.insert "tx-1" true).insert "tx-2" true

theorem prepared_ready : prepared.Ready funded results.entries where
  funds a := by
    by_cases sender : a = alice
    · subst sender
      decide +kernel
    · refine (Finset.sum_eq_zero fun x _ => ?_).trans_le (Nat.zero_le _)
      simp only [prepared, FMap.get_set, FMap.get_empty]
      split
      · simp [owed, Ne.symm sender]
      · split <;> simp [owed, Ne.symm sender]
  holds := by decide +kernel
  sets x _ call found := by
    simp [prepared, Chain.newChain, Chain.getPendingCall] at found
  credits a := by
    by_cases sender : a = alice
    · subst sender
      decide +kernel
    · by_cases recipient : a = bob
      · subst recipient
        decide +kernel
      · have committing : prepared.committing results.entries = ["tx-1", "tx-2"] := by decide +kernel
        have credits : prepared.getPendingCredits "tx-1" = some [⟨bob, 60⟩] := by decide +kernel
        have none : prepared.getPendingCredits "tx-2" = none := by decide +kernel
        simp [committing, credits, none, due, Ne.symm recipient, funded, sender]
  queue := by decide +kernel

end ResultOrderPole

open ResultOrderPole in
/-- The two orders of two commits: the debits are queued in different orders, both go through. -/
theorem two_commits_in_either_order :
    Option.Rel SameOutcome
      ((prepared.processOrchestratorBlock ⟨1, results, []⟩).produceBlock vm funded (some 0))
      ((prepared.processOrchestratorBlock ⟨1, results', []⟩).produceBlock vm funded (some 0)) ∧
      (prepared.processOrchestratorBlock ⟨1, results, []⟩).currentTxs ≠
        (prepared.processOrchestratorBlock ⟨1, results', []⟩).currentTxs ∧
      ((prepared.processOrchestratorBlock ⟨1, results, []⟩).produceBlock vm funded (some 0)).map
          (fun p => [p.evm.balance alice, p.evm.balance bob, p.evm.storage vault 1,
            p.evm.storage vault 2]) = some [5, 55, 7, 9] := by
  refine ⟨?_, by decide +kernel, by decide +kernel⟩
  exact result_order_unobservable vm prepared funded (some 0) ⟨1, results, []⟩ results'
    prepared_ready (by decide +kernel)

namespace ResultOrderPole

/-- A negative reservation and one of ten, of what `rich` gives to alice. -/
def reserved : Chain := ((Chain.newChain 0).lockFunds "tx-1" alice (-5)).lockFunds "tx-2" alice 10

def rich : EVMState :=
  ⟨fun a => if a = alice then BitVec.ofNat 256 (2 ^ 256 - 5) else 0, fun _ _ => 0, fun _ => []⟩

end ResultOrderPole

open ResultOrderPole in
/-- A negative reservation is debited as a huge amount, and then the order shows: with it first the
other debit fails, with it last it fails itself.  The reservations sum to 5, no write set, call or
credit is pending and nothing is queued. -/
theorem negative_reservation_shows_order :
    (∀ a, reserved.getLockedAmountForAddress a ≤ (rich.balance a).toNat) ∧
    (∀ x, reserved.getPendingRwSet x = none ∧ reserved.getPendingCall x = none ∧
      reserved.getPendingCredits x = none) ∧ reserved.currentTxs = [] ∧
    ((reserved.processOrchestratorBlock ⟨1, results, []⟩).produceBlock vm rich (some 0)).map
        (fun p => (p.evm.balance alice).toNat) = some 0 ∧
    ((reserved.processOrchestratorBlock ⟨1, results', []⟩).produceBlock vm rich (some 0)).map
        (fun p => (p.evm.balance alice).toNat) = some (2 ^ 256 - 15) := by
  refine ⟨fun a => ?_, fun x => ⟨rfl, rfl, rfl⟩, rfl, by decide +kernel, by decide +kernel⟩
  by_cases sender : a = alice
  · subst sender
    decide +kernel
  · have entries : reserved.entriesAt a = [] := by
      simp [reserved, Chain.lockFunds, Chain.newChain, Chain.entriesAt, sender]
    rw [Chain.getLockedAmountForAddress, entries]
    exact Int.natCast_nonneg _

end CrossShard.Shard
