/-
# Shard.LockLifetime -- when a decision releases every lock

Processing a decision queues an `Unlock`, and a `CrossAbort` if something is recorded for
the transaction at that moment.  `ProduceBlock` sorts the queue, so an `Unlock` runs before
a `Lock` of the same block and a `CrossAbort` after it.  A decision that arrives while the
`Lock` still waits, with nothing recorded yet, therefore leaves a lock that nothing will
ever release (`lock_outlives_its_decision`).

In every other case the locks are gone once the next block is complete, and stay gone
(`forgotten_after_decision`).  The invariant is `Releasing`: from its decision on, a
transaction is forgotten or a transaction that forgets it still waits, and behind a waiting
`Lock` waits a `CrossAbort`.
-/
import CrossShard.Shard.Provenance

namespace CrossShard.Shard

set_option autoImplicit false

open CrossShard.Library CrossShard.Protocol
open Chain (crossTx lockTx)

def AbortOf (txID : TxID) (tx : Transaction) : Prop :=
  tx.txType = .crossAbort ∧ tx.crossShardTxID = txID

/-- Executing `tx` forgets `txID`. -/
def Cleans (txID : TxID) (tx : Transaction) : Prop :=
  (tx.txType = .unlock ∨ tx.txType = .crossAbort) ∧ tx.crossShardTxID = txID

/-- A queue that locks `txID` also aborts it. -/
def Orderly (txID : TxID) (queue : List Transaction) : Prop :=
  (∃ tx ∈ queue, LockOf txID tx) → ∃ tx ∈ queue, AbortOf txID tx

/-- The decision of `txID` finds its `Lock` executed, or is an abort that finds something
recorded; and `txID` is not ordered after it. -/
def DecidedInTime (txID : TxID) (n : Node) : Event → Prop
  | .decision x committed =>
      x = txID → n.chain.isCommitProcessed txID = false →
        (∀ tx ∈ n.chain.currentTxs, ¬LockOf txID tx) ∨
          committed = false ∧ n.chain.hasData txID = true
  | .order t => t.id = txID → n.chain.isCommitProcessed txID = false
  | _ => True

/-! ## Queues -/

section Queues

variable {txID : TxID} {queue : List Transaction}

theorem orderly_nil (txID : TxID) : Orderly txID [] := by
  rintro ⟨tx, member, -⟩
  cases member

theorem Orderly.append (orderly : Orderly txID queue) {more : List Transaction}
    (unlocked : ∀ tx ∈ more, ¬LockOf txID tx) : Orderly txID (queue ++ more) := by
  rintro ⟨tx, member, lock⟩
  rcases List.mem_append.1 member with old | new
  · obtain ⟨abort, waits, aborts⟩ := orderly ⟨tx, old, lock⟩
    exact ⟨abort, List.mem_append_left _ waits, aborts⟩
  · exact absurd lock (unlocked tx new)

theorem Orderly.perm (orderly : Orderly txID queue) {queue' : List Transaction}
    (perm : queue'.Perm queue) : Orderly txID queue' := by
  rintro ⟨tx, member, lock⟩
  obtain ⟨abort, waits, aborts⟩ := orderly ⟨tx, perm.mem_iff.1 member, lock⟩
  exact ⟨abort, perm.mem_iff.2 waits, aborts⟩

/-- The abort comes after the `Lock`, so the rest of the work is orderly too. -/
theorem Orderly.tail {n : Node} (sorted : Sorted n) {tx : Transaction}
    {rest successful : List Transaction} (busy : n.work = some ⟨tx :: rest, successful⟩)
    (orderly : Orderly txID n.outstanding) : Orderly txID rest := by
  rw [Node.outstanding_of_busy busy] at orderly
  rintro ⟨lock, member, locks⟩
  obtain ⟨abort, waits, aborts⟩ := orderly ⟨lock, List.mem_cons_of_mem _ member, locks⟩
  rcases List.mem_cons.1 waits with rfl | waits
  · have le := sorted.priority_le busy member
    simp [aborts.1, locks.1, TxType.priority] at le
  · exact ⟨abort, waits, aborts⟩

theorem not_lockOf_of_mem_decisionTxs {c : Chain} {x : TxID} {committed : Bool} {tx : Transaction}
    (member : tx ∈ c.decisionTxs x committed) : ¬LockOf txID tx := by
  intro lock
  have listed : tx ∈ (c.decisionTxs x committed).filter fun tx => tx.txType = .lock :=
    List.mem_filter.2 ⟨member, by simpa using lock.1⟩
  rw [filter_lock_decisionTxs] at listed
  cases listed

end Queues

theorem forgotten_of_below {c c' : Chain} {txID : TxID} (below : Chain.Below c' c)
    (forgotten : c.Forgotten txID) : c'.Forgotten txID where
  slots a s held := forgotten.slots a s (below.slots a s txID held)
  locked := Option.eq_none_iff_forall_ne_some.2 fun lock found => by
    have := below.locked txID lock found
    simp [forgotten.locked] at this
  pendingCredits := Option.eq_none_iff_forall_ne_some.2 fun credits found => by
    rcases below.pendingCredits txID credits found with same | ⟨-, all, before, -⟩
    · simp [found, forgotten.pendingCredits] at same
    · simp [forgotten.pendingCredits] at before
  pendingCalls := Option.eq_none_iff_forall_ne_some.2 fun call found => by
    have := below.pendingCalls txID call found
    simp [forgotten.pendingCalls] at this
  pendingRwSets := Option.eq_none_iff_forall_ne_some.2 fun rwSet found => by
    have := below.pendingRwSets txID rwSet found
    simp [forgotten.pendingRwSets] at this

/-- An executed `Unlock` or `CrossAbort` forgets its transaction. -/
theorem forgotten_of_cleans {txID : TxID} (named : txID ≠ "") {tx : Transaction}
    (cleans : Cleans txID tx) (c : Chain) : (c.cleanupAfterExecution tx).Forgotten txID := by
  obtain ⟨kind, rfl⟩ := cleans
  rcases kind with kind | kind <;> simp only [Chain.cleanupAfterExecution, kind, named, if_false]
  · exact Chain.forgotten_clearAllMetadata _ _
  · exact Chain.forgotten_clearAllMetadata _ _

/-- Cleaning transactions always run. -/
theorem not_skipped_of_cleans {vm : VM} {n : Node} {txID : TxID} {tx : Transaction}
    (cleans : Cleans txID tx)
    (reason : (n.chain.checkLocalTxLockConflict tx).isSome ∨
      tx.txType ≠ .lock ∧ ∃ msg, n.evm.executeTx vm tx = .error msg) : False := by
  rcases cleans.1 with kind | kind <;>
    simp [Chain.checkLocalTxLockConflict, EVMState.executeTx, kind] at reason

/-! ## The invariant -/

/-- What holds of a decided transaction until its next block is complete.  The queue is
orderly as well as the remaining work, because a block whose commit fails starts over. -/
structure Releasing (txID : TxID) (n : Node) : Prop where
  sorted : Sorted n
  released : n.chain.isCommitProcessed txID = true →
    n.chain.Forgotten txID ∨ ∃ tx ∈ n.outstanding, Cleans txID tx
  waiting : n.chain.isCommitProcessed txID = true → Orderly txID n.outstanding
  queue : n.chain.isCommitProcessed txID = true → Orderly txID n.chain.currentTxs

theorem releasing_start (txID : TxID) (shardID : Int) (evm : EVMState) :
    Releasing txID (Node.start shardID evm) := by
  have unprocessed : (Node.start shardID evm).chain.isCommitProcessed txID = false := by
    simp [Node.start, Chain.newChain, Chain.isCommitProcessed]
  refine ⟨fun w busy => ?_, ?_, ?_, ?_⟩
  · cases busy
  all_goals simp [unprocessed]

section Step

variable {txID : TxID} {vm : VM} {n n' : Node} {e : Event}

/-- Between blocks: an event that queues `more` and marks nothing else than it should. -/
theorem Releasing.idle (inv : Releasing txID n) (idle : n.work = none) {chain : Chain}
    (more : List Transaction) (queue : chain.currentTxs = n.chain.currentTxs ++ more)
    (unlocked : n.chain.isCommitProcessed txID = true → ∀ tx ∈ more, ¬LockOf txID tx)
    (marks : chain.isCommitProcessed txID = n.chain.isCommitProcessed txID)
    (view : n.chain.isCommitProcessed txID = true → chain.view txID = n.chain.view txID) :
    Releasing txID { n with chain := chain } := by
  have now : ({ n with chain := chain } : Node).outstanding = n.chain.currentTxs ++ more :=
    (Node.outstanding_of_idle (n := { n with chain := chain }) idle).trans queue
  refine ⟨fun work busy => inv.sorted work busy, fun processed => ?_, fun processed => ?_,
    fun processed => ?_⟩ <;> rw [marks] at processed
  · rcases inv.released processed with forgotten | ⟨tx, member, cleans⟩
    · exact Or.inl (Chain.forgotten_of_view (view processed) forgotten)
    · rw [Node.outstanding_of_idle idle] at member
      exact Or.inr ⟨tx, by rw [now]; exact List.mem_append_left _ member, cleans⟩
  · rw [now]
    exact (inv.queue processed).append (unlocked processed)
  · show Orderly txID chain.currentTxs
    rw [queue]
    exact (inv.queue processed).append (unlocked processed)

/-- The decision of `txID` itself. -/
theorem Releasing.decided (inv : Releasing txID n) (idle : n.work = none) (committed : Bool)
    (inTime : (∀ tx ∈ n.chain.currentTxs, ¬LockOf txID tx) ∨
      committed = false ∧ n.chain.hasData txID = true) {chain : Chain}
    (queue : chain.currentTxs = n.chain.currentTxs ++ n.chain.decisionTxs txID committed) :
    Releasing txID { n with chain := chain } := by
  have now : ({ n with chain := chain } : Node).outstanding =
      n.chain.currentTxs ++ n.chain.decisionTxs txID committed :=
    (Node.outstanding_of_idle (n := { n with chain := chain }) idle).trans queue
  have orderly : Orderly txID (n.chain.currentTxs ++ n.chain.decisionTxs txID committed) := by
    rintro ⟨tx, member, lock⟩
    rcases inTime with none_waits | ⟨rfl, recorded⟩
    · rcases List.mem_append.1 member with old | new
      · exact absurd lock (none_waits tx old)
      · exact absurd lock (not_lockOf_of_mem_decisionTxs new)
    · refine ⟨crossTx .crossAbort txID, List.mem_append_right _ ?_, rfl, rfl⟩
      simp [Chain.decisionTxs, Chain.abortTxs, recorded]
  refine ⟨fun work busy => inv.sorted work busy, fun _ => Or.inr ?_, fun _ => ?_, fun _ => ?_⟩
  · refine ⟨crossTx .unlock txID, ?_, Or.inl rfl, rfl⟩
    rw [now]
    exact List.mem_append_right _ (by simp [Chain.decisionTxs])
  · rw [now]
    exact orderly
  · show Orderly txID chain.currentTxs
    rw [queue]
    exact orderly

/-- Inside a block: the head of the work is done, and the transaction is forgotten, or its
cleanup still waits, or the head was neither its cleanup nor records anything for it. -/
theorem Releasing.busy (inv : Releasing txID n) {tx : Transaction}
    {rest successful successful' : List Transaction}
    (busy : n.work = some ⟨tx :: rest, successful⟩) {chain : Chain} {evm : EVMState}
    (steady : chain.steady = n.chain.steady)
    (effect : n.chain.isCommitProcessed txID = true → chain.Forgotten txID ∨
      (∃ tx' ∈ rest, Cleans txID tx') ∨
      ¬Cleans txID tx ∧ (n.chain.Forgotten txID → chain.Forgotten txID))
    (sorted : Sorted ⟨chain, evm, some ⟨rest, successful'⟩⟩) :
    Releasing txID ⟨chain, evm, some ⟨rest, successful'⟩⟩ := by
  have marks : chain.isCommitProcessed txID = n.chain.isCommitProcessed txID := by
    show (chain.steady.processedCommits.get txID).getD false = _
    rw [steady]
    rfl
  have queue : chain.currentTxs = n.chain.currentTxs := congrArg Chain.Steady.currentTxs steady
  refine ⟨sorted, fun processed => ?_, fun processed => ?_, fun processed => ?_⟩ <;>
    rw [marks] at processed
  · rcases effect processed with forgotten | cleaned | ⟨other, keeps⟩
    · exact Or.inl forgotten
    · exact Or.inr cleaned
    · rcases inv.released processed with forgotten | ⟨tx', member, cleans⟩
      · exact Or.inl (keeps forgotten)
      · rw [Node.outstanding_of_busy busy] at member
        rcases List.mem_cons.1 member with rfl | member
        · exact absurd cleans other
        · exact Or.inr ⟨tx', member, cleans⟩
  · exact (inv.waiting processed).tail inv.sorted busy
  · show Orderly txID chain.currentTxs
    rw [queue]
    exact inv.queue processed

theorem Releasing.step (inv : Releasing txID n) (named : txID ≠ "") (taken : Taken vm n e n')
    (inTime : DecidedInTime txID n e) : Releasing txID n' := by
  have sorted := inv.sorted.step taken
  cases taken with
  | stale x committed idle processed => exact inv
  | decided x committed idle fresh =>
      by_cases own : x = txID
      · subst own
        exact inv.decided idle committed (inTime rfl fresh) rfl
      · refine inv.idle idle _ rfl (fun _ tx member => not_lockOf_of_mem_decisionTxs member) ?_
          fun _ => rfl
        simp [Chain.isCommitProcessed, Ne.symm own]
  | ordered t idle involved =>
      have other : n.chain.isCommitProcessed txID = true → t.id ≠ txID := by
        intro processed own
        simp [inTime own] at processed
      have steady := n.chain.steady_noteOrder t
      refine inv.idle idle [lockTx n.chain.shardID t] ?_ (fun processed tx member => ?_) ?_
        fun processed => ?_
      · exact congrArg (· ++ _) (currentTxs_noteOrder ..)
      · rw [List.mem_singleton.1 member]
        exact fun lock => other processed lock.2
      · show ((n.chain.noteOrder t).steady.processedCommits.get txID).getD false = _
        rw [steady]
        rfl
      · exact Chain.view_noteOrder_of_ne (Ne.symm (other processed))
  | passed t idle foreign => exact inv
  | advanced height idle =>
      exact inv.idle idle [] (by simp [Chain.setLastOrchestratorHeight]) (fun _ => List.forall_mem_nil _)
        rfl fun _ => rfl
  | submitted tx idle kind unnamed =>
      refine inv.idle idle _ rfl (fun _ tx' member => ?_) rfl fun _ => rfl
      rw [List.mem_singleton.1 member]
      exact fun lock => by simp [LockOf, kind] at lock
  | begun idle =>
      have perm : (Chain.sortTransactionsByPriority n.chain.currentTxs).Perm n.outstanding := by
        rw [Node.outstanding_of_idle idle]
        exact byKey_perm _ _
      refine ⟨sorted, fun processed => ?_, fun processed => (inv.waiting processed).perm perm,
        inv.queue⟩
      rcases inv.released processed with forgotten | ⟨tx, member, cleans⟩
      · exact Or.inl forgotten
      · exact Or.inr ⟨tx, perm.mem_iff.2 member, cleans⟩
  | skipped tx rest successful busy reason =>
      refine inv.busy busy rfl (fun _ => Or.inr (Or.inr ⟨fun cleans => ?_, id⟩)) sorted
      exact not_skipped_of_cleans cleans reason
  | granted tx rest successful busy kind chain lock =>
      refine inv.busy busy lock.steady (fun processed => Or.inr ?_) sorted
      by_cases own : tx.crossShardTxID = txID
      · -- behind a granted `Lock` of a decided transaction waits its abort
        obtain ⟨abort, waits, aborts⟩ := inv.waiting processed
          ⟨tx, by simp [Node.outstanding_of_busy busy], kind, own⟩
        rw [Node.outstanding_of_busy busy] at waits
        rcases List.mem_cons.1 waits with rfl | waits
        · simp [AbortOf, kind] at aborts
        · exact Or.inl ⟨abort, waits, Or.inr aborts.1, aborts.2⟩
      · exact Or.inr ⟨fun cleans => own cleans.2,
          Chain.forgotten_of_view (lock.view_of_ne (Ne.symm own))⟩
  | refused tx rest successful busy kind chain lock result =>
      refine inv.busy busy lock.steady (fun _ => ?_) sorted
      by_cases own : tx.crossShardTxID = txID
      · exact Or.inl (own ▸ lock.forgotten)
      · exact Or.inr (Or.inr ⟨fun cleans => own cleans.2,
          Chain.forgotten_of_view (lock.others txID (Ne.symm own))⟩)
  | applied tx rest successful busy kind free evm ran =>
      refine inv.busy busy (n.chain.steady_cleanupAfterExecution tx) (fun _ => ?_) sorted
      by_cases cleans : Cleans txID tx
      · exact Or.inl (forgotten_of_cleans named cleans n.chain)
      · exact Or.inr (Or.inr ⟨cleans, forgotten_of_below (n.chain.below_cleanupAfterExecution tx)⟩)
  | committed stateRoot successful busy =>
      refine ⟨sorted, fun processed => Or.inl ?_, fun _ => orderly_nil txID, fun _ => orderly_nil txID⟩
      rcases inv.released processed with forgotten | ⟨tx, member, cleans⟩
      · exact Chain.forgotten_of_view (c := n.chain) rfl forgotten
      · rw [Node.outstanding_of_busy busy] at member
        cases member
  | failed successful busy =>
      refine ⟨sorted, fun processed => Or.inl ?_, inv.queue, inv.queue⟩
      rcases inv.released processed with forgotten | ⟨tx, member, cleans⟩
      · exact forgotten
      · rw [Node.outstanding_of_busy busy] at member
        cases member

/-! ## After the block -/

/-- A decided transaction that is forgotten and will not be locked again. -/
structure Released (txID : TxID) (n : Node) : Prop where
  processed : n.chain.isCommitProcessed txID = true
  forgotten : n.chain.Forgotten txID
  waiting : ∀ tx ∈ n.outstanding, ¬LockOf txID tx
  queue : ∀ tx ∈ n.chain.currentTxs, ¬LockOf txID tx

/-- A committed block completes the release. -/
theorem Releasing.released_of_commit (inv : Releasing txID n)
    (processed : n.chain.isCommitProcessed txID = true) {stateRoot : Hash}
    (taken : Taken vm n (.commitBlock stateRoot) n') : Released txID n' := by
  cases taken with
  | committed _ successful busy =>
      refine ⟨processed, ?_, List.forall_mem_nil _, List.forall_mem_nil _⟩
      rcases inv.released processed with forgotten | ⟨tx, member, cleans⟩
      · exact Chain.forgotten_of_view (c := n.chain) rfl forgotten
      · rw [Node.outstanding_of_busy busy] at member
        cases member

theorem Released.queued (inv : Released txID n) (taken : Taken vm n e n')
    (inTime : DecidedInTime txID n e) : ∀ tx ∈ added n e, ¬LockOf txID tx := by
  intro tx member lock
  cases taken with
  | stale x committed idle processed => simp [added, processed] at member
  | decided x committed idle fresh =>
      simp only [added, fresh, Bool.false_eq_true, if_false] at member
      exact not_lockOf_of_mem_decisionTxs member lock
  | ordered t idle involved =>
      simp only [added, involved, if_true, List.mem_singleton] at member
      subst member
      have fresh := inTime lock.2
      simp [inv.processed] at fresh
  | passed t idle foreign => simp [added, foreign] at member
  | submitted tx' idle kind unnamed =>
      rw [List.mem_singleton.1 member] at lock
      simp [LockOf, kind] at lock
  | _ => cases member

/-- What is forgotten stays forgotten unless it is ordered or locked again. -/
theorem Released.forgotten_step (inv : Released txID n) (taken : Taken vm n e n')
    (inTime : DecidedInTime txID n e) : n'.chain.Forgotten txID := by
  have same : ∀ {chain : Chain}, chain.view txID = n.chain.view txID → chain.Forgotten txID :=
    fun view => Chain.forgotten_of_view view inv.forgotten
  cases taken with
  | ordered t idle involved =>
      refine same (Chain.view_noteOrder_of_ne fun own => ?_)
      have fresh := inTime own.symm
      simp [inv.processed] at fresh
  | granted tx rest successful busy kind chain lock =>
      refine same (lock.view_of_ne fun own => ?_)
      exact inv.waiting tx (by simp [Node.outstanding_of_busy busy]) ⟨kind, own.symm⟩
  | refused tx rest successful busy kind chain lock result =>
      refine same (lock.others txID fun own => ?_)
      exact inv.waiting tx (by simp [Node.outstanding_of_busy busy]) ⟨kind, own.symm⟩
  | applied tx rest successful busy kind free evm ran =>
      exact forgotten_of_below (n.chain.below_cleanupAfterExecution tx) inv.forgotten
  | _ => exact same rfl

theorem Released.step (inv : Released txID n) (taken : Taken vm n e n')
    (inTime : DecidedInTime txID n e) : Released txID n' := by
  have unlocked := inv.queued taken inTime
  have queue : ∀ tx ∈ n'.chain.currentTxs, ¬LockOf txID tx := by
    intro tx member
    rcases taken.mem_currentTxs member with old | new
    · exact inv.queue tx old
    · exact unlocked tx new
  refine ⟨?_, inv.forgotten_step taken inTime, fun tx member => ?_, queue⟩
  · rw [taken.processed_eq, inv.processed, Bool.true_or]
  · by_cases failed : e = .commitError
    · subst failed
      cases taken with
      | failed successful busy => exact queue tx member
    · rcases taken.mem_outstanding failed member with old | new
      · exact inv.waiting tx old
      · exact unlocked tx new

end Step

/-! ## Whole runs -/

/-- **Release.**  Once `txID` is decided and one further block is complete, nothing is
recorded for it in any later state. -/
theorem forgotten_after_decision (vm : VM) (shardID : Int) (evm : EVMState) (txID : TxID)
    (named : txID ≠ "") (pre mid post : List Event) (committed : Bool) (stateRoot : Hash)
    (n : Node)
    (inTime : Along (step vm) (DecidedInTime txID) (Node.start shardID evm)
      (pre ++ .decision txID committed :: mid ++ .commitBlock stateRoot :: post))
    (reached : run (step vm) (Node.start shardID evm)
      (pre ++ .decision txID committed :: mid ++ .commitBlock stateRoot :: post) = some n) :
    n.chain.Forgotten txID := by
  obtain ⟨n₁, before, rest⟩ := run_append_eq_some.1 reached
  obtain ⟨n₂, stepped, after⟩ := run_cons_eq_some.1 rest
  have processed : n₁.chain.isCommitProcessed txID = true := by
    rw [marked_of_run before, verdict_append]
    simp [verdict, decisions]
  -- up to the commit `Releasing` holds, from then on `Released`
  have releasing : Releasing txID n₁ :=
    inTime.of_append.invariant (Releasing txID)
      (fun _ _ _ inv inTime stepped => inv.step named (taken_of_step stepped) inTime)
      (releasing_start txID shardID evm) before
  have done := releasing.released_of_commit processed (taken_of_step stepped)
  have later : Released txID n :=
    ((inTime.of_run before).2 n₂ stepped).invariant (Released txID)
      (fun _ _ _ inv inTime stepped => inv.step (taken_of_step stepped) inTime) done after
  exact later.forgotten

/-! ## A lock that outlives its decision -/

namespace LockLifetimePole

def alice : Address := 0x100
def carol : Address := 0x301
def vault : Address := 0x400

def funded : EVMState := ⟨fun a => if a = alice then 100 else 0, fun _ _ => 0, fun _ => []⟩

/-- Alice sends 100 to Carol on shard 1 and reads one slot of the vault on shard 0. -/
def payCarol : CrossShardTx where
  id := "tx-1"
  fromShard := 0
  fromAddr := alice
  toAddr := carol
  value := some 100
  rwSet := [⟨vault, ⟨0⟩, [⟨7, []⟩], []⟩, ⟨carol, ⟨1⟩, [], []⟩]

def orderBlock : OrchestratorShardBlock := ⟨1, ∅, [payCarol]⟩
def decisionBlock (committed : Bool) : OrchestratorShardBlock :=
  ⟨2, (∅ : AList _).insert "tx-1" committed, []⟩

/-- Both blocks arrive before the shard produces its next block. -/
def late (vm : VM) (committed : Bool) : Option Produced :=
  (((Chain.newChain 0).processOrchestratorBlock orderBlock).processOrchestratorBlock
    (decisionBlock committed)).produceBlock vm funded (some 0)

end LockLifetimePole

open LockLifetimePole in
/-- The `Unlock` runs before the `Lock`: after the block the funds and the slot are locked for
a transaction that is already decided, either way. -/
theorem lock_outlives_its_decision :
    (late ⟨fun e _ _ _ _ _ => .ok e⟩ true).map (fun p =>
      (p.chain.currentTxs, p.chain.locked.get "tx-1", p.chain.slotHolder vault 7,
        p.chain.pendingRwSets.get "tx-1")) =
    some ([], some ⟨alice, 100⟩, some "tx-1", some [⟨vault, ⟨0⟩, [⟨7, []⟩], []⟩]) ∧
    (late ⟨fun e _ _ _ _ _ => .ok e⟩ false).map (fun p =>
      (p.chain.currentTxs, p.chain.locked.get "tx-1", p.chain.slotHolder vault 7,
        p.chain.pendingRwSets.get "tx-1")) =
    some ([], some ⟨alice, 100⟩, some "tx-1", some [⟨vault, ⟨0⟩, [⟨7, []⟩], []⟩]) := by
  constructor <;> decide +kernel

namespace LockLifetimePole

/-- The same decision, processed after the block that executes the `Lock`. -/
def timely : List Event :=
  [.order payCarol, .beginBlock, .execute (lockTx 0 payCarol), .commitBlock 0,
    .decision "tx-1" true, .beginBlock,
    .execute (Chain.debitTx "tx-1" ⟨alice, 100⟩),
    .execute (Chain.finalizeTx "tx-1" [⟨vault, ⟨0⟩, [⟨7, []⟩], []⟩]),
    .execute (crossTx .unlock "tx-1"), .commitBlock 0]

end LockLifetimePole

open LockLifetimePole in
theorem timely_decision_releases :
    ∃ n, run (step ⟨fun e _ _ _ _ _ => .ok e⟩) (Node.start 0 funded) timely = some n ∧
      n.evm.balance alice = 0 ∧ n.chain.Forgotten "tx-1" := by
  refine ⟨_, rfl, by decide +kernel, ?_⟩
  refine forgotten_after_decision ⟨fun e _ _ _ _ _ => .ok e⟩ 0 funded "tx-1" (by decide)
    (timely.take 4) ((timely.drop 5).take 4) [] true 0 _ ?_ rfl
  refine .cons (fun _ => by decide +kernel) rfl (.cons trivial rfl (.cons trivial rfl (.cons trivial
    rfl (.cons (fun _ _ => Or.inl nofun) rfl (.cons trivial rfl (.cons trivial rfl (.cons trivial rfl
    (.cons trivial rfl (.cons trivial rfl trivial)))))))))

end CrossShard.Shard
