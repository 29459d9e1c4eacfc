/-
# Shard.Replay -- crash recovery by replay, against live processing

A shard that restarts replays the orchestrator's blocks back to back and only then produces
blocks; a live shard produces one after each.  The decision of a transaction is so processed
before its `Lock` has executed: it finds no reservation to debit, and the `Lock`, which
executes after the `Unlock`, is never released (`replay_skips_the_debit`).

What replay does reproduce is the rest.  `Replayable` asks that the decided transactions of
the log have nothing to lock on this shard, and that no credit of a later block goes to the
sender of a transfer that an earlier block orders here.  Under it both runs execute the same
credits and the same `Lock`s in the same order, and each `Lock` sees the balance it needs:

* `creditsDue`, `Harmless`: the credits are a function of the order in which blocks are
  processed, and nothing else changes a balance or the storage;
* `Mirrors`: the locks held are the specified ones (`Locks.lock`), each computed against the
  final state;
* `replay_agrees_with_live`: balances, storage, slot locks and fund locks agree.
-/
import CrossShard.Shard.Intake
import CrossShard.Shard.LockSpec

namespace CrossShard.Shard

set_option autoImplicit false

open CrossShard.Library CrossShard.Protocol
open Chain (debitTx creditTx writeSetTx finalizeTx crossTx lockTx readItems)

/-! ## Credits that fall due -/

def isCredit (tx : Transaction) : Bool := tx.txType = .crossCredit

def isLock (tx : Transaction) : Bool := tx.txType = .lock

/-- The credits that the orders in `txs` note for `txID` on this shard. -/
def notedCredits (shardID : Int) (txs : List CrossShardTx) (txID : TxID) : List PendingCredit :=
  (txs.filter fun t => t.id = txID ∧ shardID ∈ t.involvedShards ∧
    (0 < toBigInt t.value ∧ shardOf t.toAddr = shardID)).map fun t => ⟨t.toAddr, toBigInt t.value⟩

theorem notedCredits_append (shardID : Int) (txs txs' : List CrossShardTx) (txID : TxID) :
    notedCredits shardID (txs ++ txs') txID =
      notedCredits shardID txs txID ++ notedCredits shardID txs' txID := by
  simp [notedCredits]

/-- The credits that one event makes due, after the events of `past`. -/
def creditsDueAt (shardID : Int) (past : List Event) : Event → List Transaction
  | .decision txID true =>
      if verdict past txID = none then
        (notedCredits shardID (ordered past) txID).map (creditTx txID)
      else []
  | _ => []

/-- The credits that the events `es` make due, after those of `past`. -/
def creditsDue (shardID : Int) : List Event → List Event → List Transaction
  | _, [] => []
  | past, e :: es => creditsDueAt shardID past e ++ creditsDue shardID (past ++ [e]) es

theorem creditsDue_append (shardID : Int) (past es fs : List Event) :
    creditsDue shardID past (es ++ fs) =
      creditsDue shardID past es ++ creditsDue shardID (past ++ es) fs := by
  induction es generalizing past with
  | nil => simp [creditsDue]
  | cons e es ih =>
      rw [List.cons_append, creditsDue, creditsDue, ih, List.append_assoc, List.append_assoc]
      rfl

/-- The credits of a committed transaction go to its recipient on this shard. -/
theorem mem_creditsDue {shardID : Int} {past es : List Event} {tx : Transaction}
    (member : tx ∈ creditsDue shardID past es) :
    ∃ t ∈ ordered (past ++ es), (t.id, true) ∈ decisions es ∧ 0 < toBigInt t.value ∧
      shardOf t.toAddr = shardID ∧ tx = creditTx t.id ⟨t.toAddr, toBigInt t.value⟩ := by
  induction es generalizing past with
  | nil => cases member
  | cons e es ih =>
      rcases List.mem_append.1 member with now | later
      · cases e with
        | decision txID committed =>
            cases committed with
            | false => cases now
            | true =>
                simp only [creditsDueAt] at now
                split at now
                · obtain ⟨credit, noted, rfl⟩ := List.mem_map.1 now
                  obtain ⟨t, listed, rfl⟩ := List.mem_map.1 noted
                  obtain ⟨known, facts⟩ := List.mem_filter.1 listed
                  simp only [decide_eq_true_eq] at facts
                  obtain ⟨rfl, -, positive, home⟩ := facts
                  exact ⟨t, mem_ordered_append known _, by simp [decisions], positive, home, rfl⟩
                · cases now
        | _ => cases now
      · obtain ⟨t, known, decided, facts⟩ := ih later
        refine ⟨t, by simpa using known, ?_, facts⟩
        have more : decisions (e :: es) = decisions [e] ++ decisions es := decisions_append [e] es
        rw [more]
        exact List.mem_append_right _ decided

/-- Credits raise balances and change nothing else. -/
def creditTo (e : EVMState) (tx : Transaction) : EVMState :=
  e.addBalance tx.toAddr (BitVec.ofInt 256 (toBigInt tx.value))

theorem storage_creditAll (txs : List Transaction) (e : EVMState) :
    (txs.foldl creditTo e).storage = e.storage := by
  induction txs generalizing e with
  | nil => rfl
  | cons tx txs ih => exact ih (creditTo e tx)

theorem balance_creditAll {txs : List Transaction} {a : Address} (e : EVMState)
    (other : ∀ tx ∈ txs, tx.toAddr ≠ a) : (txs.foldl creditTo e).balance a = e.balance a := by
  induction txs generalizing e with
  | nil => rfl
  | cons tx txs ih =>
      rw [List.foldl_cons, ih _ fun tx' member => other tx' (List.mem_cons_of_mem _ member)]
      have apart := other tx (List.mem_cons_self ..)
      rw [creditTo, EVMState.balance_addBalance, if_neg (Ne.symm apart)]

/-- A credit is paid when its amount fits a word. -/
theorem credit_ok {e e' : EVMState} {tx : Transaction}
    (ran : e.credit tx.toAddr (toBigInt tx.value) = .ok e') :
    e' = creditTo e tx ∧ (toBigInt tx.value).natAbs < 2 ^ 256 := by
  unfold EVMState.credit mustFromBig at ran
  split at ran
  · cases ran
  · rename_i amount reads
    split at reads
    · rename_i small
      cases reads
      cases ran
      exact ⟨rfl, small⟩
    · cases reads

/-! ## Runs that replay can reproduce -/

/-- `t` reserves, reads and writes nothing on this shard. -/
structure NothingToLock (shardID : Int) (t : CrossShardTx) : Prop where
  value : t.fromShard = shardID → toBigInt t.value ≤ 0
  reads : ∀ rw ∈ t.localRwSet shardID, rw.readSet = []
  writes : ∀ rw ∈ t.localRwSet shardID, rw.writeSet = []

theorem NothingToLock.lockFree {shardID : Int} {t : CrossShardTx} (nothing : NothingToLock shardID t) :
    Locks.LockFree (lockTx shardID t) where
  value := by
    by_contra positive
    obtain ⟨source, value⟩ := toBigInt_lockTx_pos (not_le.1 positive)
    have none := nothing.value source
    omega
  reads := by
    refine List.flatMap_eq_nil_iff.2 fun rw member => ?_
    rw [nothing.reads rw member, List.map_nil]

theorem NothingToLock.applyWriteSet {shardID : Int} {t : CrossShardTx}
    (nothing : NothingToLock shardID t) (e : EVMState) :
    e.applyWriteSet (t.localRwSet shardID) = e := by
  obtain ⟨balance, code⟩ := e.applyWriteSet_frame (t.localRwSet shardID)
  refine EVMState.ext balance ?_ code
  funext a s
  rw [EVMState.storage_applyWriteSet, EVMState.lastWrite_eq_none]
  · rfl
  · intro rw member w listed
    rw [nothing.writes rw member] at listed
    cases listed

def Decided (es : List Event) (txID : TxID) : Prop := ∃ committed, (txID, committed) ∈ decisions es

/-- What `Replayable` says of a log, on the events of a run. -/
structure Calm (shardID : Int) (total : List Event) : Prop where
  disciplined : Disciplined total
  unsubmitted : ∀ tx, Event.submit tx ∉ total
  free : ∀ t ∈ ordered total, Decided total t.id → NothingToLock shardID t
  settled : ∀ pre tx post, total = pre ++ .execute tx :: post → ∀ u ∈ ordered pre,
    u.fromShard = shardID → 0 < toBigInt u.value → ∀ t ∈ ordered total,
    (t.id, true) ∈ decisions post → 0 < toBigInt t.value → shardOf t.toAddr = shardID →
    t.toAddr ≠ u.fromAddr

/-- The state a run ends in when all its credits are paid. -/
def settledEVM (shardID : Int) (evm₀ : EVMState) (es : List Event) : EVMState :=
  (creditsDue shardID [] es).foldl creditTo evm₀

/-- The `Lock`s a history orders on this shard. -/
def orderedLocks (shardID : Int) (es : List Event) : List Transaction :=
  ((ordered es).filter fun t => shardID ∈ t.involvedShards).map (lockTx shardID)

/-- **The invariant.**  Nothing but credits changes the state, and the locks held are the
specified ones, computed against the final state. -/
structure Mirrors (shardID : Int) (evm₀ : EVMState) (total es : List Event) (n : Node) : Prop where
  indexed : n.chain.Indexed
  quiet : ∀ tx ∈ ledger es n, tx.txType ≠ .crossDebit ∧ tx.txType ≠ .localTx
  noted : ∀ txID, verdict es txID = none → Decided total txID →
    (n.chain.pendingCredits.get txID).getD [] = notedCredits shardID (ordered es) txID
  credits : (ledger es n).filter isCredit = creditsDue shardID [] es
  locks : (ledger es n).filter isLock = orderedLocks shardID es
  fits : ∀ tx ∈ executed es, isCredit tx = true → (toBigInt tx.value).natAbs < 2 ^ 256
  evm : n.evm = ((executed es).filter isCredit).foldl creditTo evm₀
  held : n.chain.locks =
    ((executed es).filter isLock).foldl (Locks.lock (settledEVM shardID evm₀ total)) Locks.empty

theorem mirrors_start (shardID : Int) (evm₀ : EVMState) (total : List Event) :
    Mirrors shardID evm₀ total [] (Node.start shardID evm₀) where
  indexed := by constructor <;> simp [Node.start, Chain.newChain, Chain.entriesAt]
  quiet := by simp [ledger, executed, Node.outstanding, Node.start, Chain.newChain]
  noted := by simp [Node.start, Chain.newChain, notedCredits, ordered]
  credits := by simp [ledger, executed, Node.outstanding, Node.start, Chain.newChain, creditsDue]
  locks := by
    simp [ledger, executed, Node.outstanding, Node.start, Chain.newChain, orderedLocks, ordered]
  fits := by simp [executed]
  evm := rfl
  held := rfl

section Step

variable {shardID : Int} {vm : VM} {evm₀ : EVMState} {total es rest : List Event} {e : Event}
  {n n' : Node}

theorem decided_of_verdict {txID : TxID} {committed : Bool}
    (decided : verdict es txID = some committed) (rest : List Event) :
    Decided (es ++ rest) txID :=
  ⟨committed, verdict_mem (verdict_mono decided rest)⟩

/-- A transaction that the run decides never holds anything. -/
theorem Calm.absent (calm : Calm shardID (es ++ rest)) (traced : Traced shardID es n)
    (indexed : n.chain.Indexed) {txID : TxID} (decided : Decided (es ++ rest) txID) :
    n.chain.locks.Absent txID := by
  have nothing : ∀ t ∈ ordered es, t.id = txID → NothingToLock shardID t := by
    rintro t member rfl
    exact calm.free t (mem_ordered_append member rest) decided
  have funds : n.chain.locked.get txID = none := by
    refine Option.eq_none_iff_forall_ne_some.2 fun lock found => ?_
    obtain ⟨t, member, same, source, positive, -⟩ := traced.tables.funds txID lock found
    have none := (nothing t member same).value source
    omega
  refine ⟨funds, indexed.unlisted funds, fun a s held => ?_⟩
  obtain ⟨t, member, same, ⟨p, reads, -⟩, -⟩ := traced.tables.slots a s txID held
  rw [(nothing t member same).lockFree.reads] at reads
  cases reads

/-- What waits besides `Lock`s belongs to a decided transaction. -/
theorem Traced.verdict_of_queued (traced : Traced shardID es n) {tx : Transaction}
    (member : tx ∈ ledger es n) (other : tx.txType ≠ .lock) (foreign : tx.txType ≠ .localTx) :
    ∃ committed, verdict es tx.crossShardTxID = some committed := by
  cases traced.queued tx member with
  | submission _ kind unnamed => exact absurd kind foreign
  | lock t known involved => exact absurd rfl other
  | effect t known committed _ caused =>
      rw [caused.id_eq]
      exact ⟨true, committed⟩
  | unlock txID committed decided => exact ⟨committed, decided⟩
  | abort txID aborted => exact ⟨false, aborted⟩

/-- The `Lock` of a decided transaction is granted. -/
theorem Calm.grants_of_decided (calm : Calm shardID (es ++ rest)) (traced : Traced shardID es n)
    {tx : Transaction} (member : tx ∈ ledger es n) (kind : tx.txType = .lock)
    (decided : Decided (es ++ rest) tx.crossShardTxID) :
    (n.chain.executeLock n.evm tx).2 = true := by
  obtain ⟨t, known, -, rfl⟩ := traced.lock_of_kind member kind
  apply Chain.executeLock_of_grants
  exact Locks.grants_of_lockFree (calm.free t (mem_ordered_append known rest) decided).lockFree

/-! ## One step -/

theorem filter_credit_decisionTxs (c : Chain) (txID : TxID) :
    (c.decisionTxs txID true).filter isCredit =
      ((c.pendingCredits.get txID).getD []).map (creditTx txID) := by
  have debits : ((c.getLockedFunds txID).toList.map (debitTx txID)).filter isCredit = [] := by
    cases c.getLockedFunds txID <;> rfl
  have credits : ((c.pendingCredits.get txID).getD []).map (creditTx txID) |>.all isCredit := by
    simp [isCredit, creditTx, crossTx]
  have writes : ∀ call : Option CrossShardTx, (call.toList.filterMap fun call =>
      if call.localRwSet c.shardID = [] then none
      else some (writeSetTx txID (call.localRwSet c.shardID))).filter isCredit = [] := by
    intro call
    refine List.filter_eq_nil_iff.2 fun tx member => ?_
    obtain ⟨t, -, made⟩ := List.mem_filterMap.1 member
    split at made
    · cases made
    · cases made
      exact Bool.false_ne_true
  have finals : ∀ rwSet : Option (List RwVariable), (rwSet.toList.filterMap fun rwSet =>
      if rwSet = [] then none else some (finalizeTx txID rwSet)).filter isCredit = [] := by
    intro rwSet
    refine List.filter_eq_nil_iff.2 fun tx member => ?_
    obtain ⟨t, -, made⟩ := List.mem_filterMap.1 member
    split at made
    · cases made
    · cases made
      exact Bool.false_ne_true
  unfold Chain.decisionTxs Chain.commitTxs
  simp only [if_true, List.filter_append, debits, writes, finals, List.nil_append, List.append_nil]
  have unlock : [crossTx .unlock txID].filter isCredit = [] := rfl
  rw [unlock, List.append_nil]
  exact List.filter_eq_self.2 (List.all_eq_true.1 credits)

theorem Mirrors.added_credits (mirrors : Mirrors shardID evm₀ (es ++ e :: rest) es n)
    (traced : Traced shardID es n) (taken : Taken vm n e n') :
    (added n e).filter isCredit = creditsDueAt shardID es e := by
  cases taken with
  | stale txID committed idle processed =>
      have mark := traced.marked txID
      rw [processed] at mark
      obtain ⟨v, before⟩ := Option.isSome_iff_exists.1 mark.symm
      cases committed <;> simp [added, processed, creditsDueAt, before]
  | decided txID committed idle fresh =>
      have mark := traced.marked txID
      rw [fresh] at mark
      have before : verdict es txID = none := by simpa using mark.symm
      simp only [added, fresh, Bool.false_eq_true, if_false]
      cases committed with
      | false =>
          refine List.filter_eq_nil_iff.2 fun tx member => ?_
          rcases mem_decisionTxs member with ⟨no, -⟩ | ⟨-, rfl⟩ | rfl
          · cases no
          · exact Bool.false_ne_true
          · exact Bool.false_ne_true
      | true =>
          have decided : Decided (es ++ .decision txID true :: rest) txID :=
            ⟨true, by simp [decisions]⟩
          rw [filter_credit_decisionTxs, mirrors.noted txID before decided, creditsDueAt,
            if_pos before]
  | ordered tx idle involved => simp [added, involved, isCredit, lockTx, crossTx, creditsDueAt]
  | passed tx idle foreign => simp [added, foreign, creditsDueAt]
  | submitted tx idle kind unnamed => simp [added, isCredit, kind, creditsDueAt]
  | _ => rfl

theorem Mirrors.added_quiet (calm : Calm shardID (es ++ e :: rest)) (traced : Traced shardID es n)
    (indexed : n.chain.Indexed) (taken : Taken vm n e n') {tx : Transaction}
    (member : tx ∈ added n e) : tx.txType ≠ .crossDebit ∧ tx.txType ≠ .localTx := by
  cases taken with
  | stale txID committed idle processed => simp [added, processed] at member
  | decided txID committed idle fresh =>
      simp only [added, fresh, Bool.false_eq_true, if_false] at member
      rcases mem_decisionTxs member with ⟨-, effect⟩ | ⟨-, rfl⟩ | rfl
      · rcases mem_commitTxs.1 effect with ⟨lock, found, -⟩ | ⟨_, -, _, -, rfl⟩ | ⟨_, -, -, rfl⟩ |
          ⟨_, -, -, rfl⟩
        · -- a reservation of a decided transaction would have to be debited
          have decided : Decided (es ++ .decision txID committed :: rest) txID :=
            ⟨committed, by simp [decisions]⟩
          have none : n.chain.locked.get txID = none := (calm.absent traced indexed decided).funds
          rw [none] at found
          cases found
        · constructor <;> rintro ⟨⟩
        · constructor <;> rintro ⟨⟩
        · constructor <;> rintro ⟨⟩
      · constructor <;> rintro ⟨⟩
      · constructor <;> rintro ⟨⟩
  | ordered t idle involved =>
      simp only [added, involved, if_true, List.mem_singleton] at member
      subst member
      constructor <;> rintro ⟨⟩
  | passed t idle foreign => simp [added, foreign] at member
  | submitted tx' idle kind unnamed => exact absurd (by simp) (calm.unsubmitted tx')
  | _ => cases member

/-- The credits noted for a transaction stay noted until its decision. -/
theorem Mirrors.noted_step (calm : Calm shardID (es ++ e :: rest))
    (mirrors : Mirrors shardID evm₀ (es ++ e :: rest) es n) (traced : Traced shardID es n)
    (taken : Taken vm n e n') {txID : TxID} (undecided : verdict (es ++ [e]) txID = none)
    (decided : Decided (es ++ e :: rest) txID) :
    (n'.chain.pendingCredits.get txID).getD [] =
      notedCredits shardID (ordered (es ++ [e])) txID := by
  have before : verdict es txID = none := by
    rw [verdict_append] at undecided
    exact (Option.or_eq_none_iff.1 undecided).1
  have old := mirrors.noted txID before decided
  rw [ordered_append, notedCredits_append, ← old]
  have quiet : ∀ {chain : Chain}, chain.pendingCredits.get txID = n.chain.pendingCredits.get txID →
      ordered [e] = [] → (chain.pendingCredits.get txID).getD [] =
        (n.chain.pendingCredits.get txID).getD [] ++ notedCredits shardID (ordered [e]) txID := by
    intro chain same unordered
    rw [same, unordered]
    simp [notedCredits]
  cases taken with
  | ordered tx idle involved =>
      rw [traced.shard] at involved
      show ((n.chain.noteOrder tx).pendingCredits.get txID).getD [] = _
      by_cases own : txID = tx.id
      · subst own
        rw [Chain.get_pendingCredits_noteOrder, traced.shard]
        split
        · rename_i credited
          simp [notedCredits, ordered, involved, credited]
        · rename_i uncredited
          simp [notedCredits, ordered, uncredited]
      · have same : (n.chain.noteOrder tx).pendingCredits.get txID =
            n.chain.pendingCredits.get txID :=
          congrArg Chain.TxView.credits (Chain.view_noteOrder_of_ne (c := n.chain) own)
        rw [same]
        simp [notedCredits, ordered, Ne.symm own]
  | passed tx idle foreign =>
      rw [traced.shard] at foreign
      simp [notedCredits, ordered, foreign]
  | granted tx rest successful busy kind chain lock =>
      apply quiet _ rfl
      rw [lock.chain, Chain.reserved_eq]
  | refused tx rest successful busy kind chain lock result =>
      apply quiet _ rfl
      by_cases own : txID = tx.crossShardTxID
      · subst own
        have waits : tx ∈ ledger es n := by simp [ledger, Node.outstanding_of_busy busy]
        have granted := calm.grants_of_decided traced waits kind decided
        rw [result] at granted
        cases granted
      · exact congrArg Chain.TxView.credits (lock.others txID own)
  | applied tx rest successful busy kind free evm ran =>
      apply quiet _ rfl
      have waits : tx ∈ ledger es n := by simp [ledger, Node.outstanding_of_busy busy]
      by_cases own : txID = tx.crossShardTxID
      · subst own
        obtain ⟨committed, known⟩ :=
          traced.verdict_of_queued waits kind (mirrors.quiet tx waits).2
        rw [before] at known
        cases known
      · exact congrArg Chain.TxView.credits
          (Chain.view_cleanupAfterExecution_of_ne (c := n.chain) own)
  | _ => exact quiet rfl rfl

/-- Only a credit changes the state. -/
theorem Mirrors.evm_step (calm : Calm shardID (es ++ e :: rest))
    (mirrors : Mirrors shardID evm₀ (es ++ e :: rest) es n) (traced : Traced shardID es n)
    (taken : Taken vm n e n') :
    n'.evm = ((executed (es ++ [e])).filter isCredit).foldl creditTo evm₀ ∧
      ∀ tx ∈ executed [e], isCredit tx = true → (toBigInt tx.value).natAbs < 2 ^ 256 := by
  rw [executed_append, List.filter_append, List.foldl_append, ← mirrors.evm]
  have still : ∀ {tx : Transaction} {evm : EVMState}, e = .execute tx → isCredit tx = false →
      evm = n.evm → evm = ((executed [e]).filter isCredit).foldl creditTo n.evm ∧
        ∀ tx ∈ executed [e], isCredit tx = true → (toBigInt tx.value).natAbs < 2 ^ 256 := by
    rintro tx evm rfl other rfl
    simp [executed, other]
  cases taken with
  | skipped tx rest successful busy reason =>
      have waits : tx ∈ ledger es n := by simp [ledger, Node.outstanding_of_busy busy]
      refine still rfl ?_ rfl
      rcases reason with conflict | ⟨-, msg, failure⟩
      · have plain := (mirrors.quiet tx waits).2
        simp [Chain.checkLocalTxLockConflict, plain] at conflict
      · -- a credit succeeds or panics
        by_contra credit
        have kind : tx.txType = .crossCredit := by simpa [isCredit] using credit
        simp only [EVMState.executeTx, kind, EVMState.credit] at failure
        split at failure <;> cases failure
  | granted tx rest successful busy kind chain lock => exact still rfl (by simp [isCredit, kind]) rfl
  | refused tx rest successful busy kind chain lock result =>
      exact still rfl (by simp [isCredit, kind]) rfl
  | applied tx rest' successful busy kind free evm ran =>
      have waits : tx ∈ ledger es n := by simp [ledger, Node.outstanding_of_busy busy]
      obtain ⟨undebited, foreign⟩ := mirrors.quiet tx waits
      cases traced.queued tx waits with
      | submission _ plain unnamed => exact absurd plain foreign
      | lock t known involved => exact absurd rfl kind
      | effect t known committed _ caused =>
          have nothing := calm.free t (mem_ordered_append known _) (decided_of_verdict committed _)
          cases caused with
          | debit source => exact absurd rfl undebited
          | credit home =>
              obtain ⟨paid, small⟩ := credit_ok (e := n.evm) ran
              refine ⟨paid, ?_⟩
              intro tx member _
              rw [List.mem_singleton.1 member]
              exact small
          | writeSet =>
              refine still rfl rfl ?_
              have same : Outcome.ok (n.evm.applyWriteSet (t.localRwSet shardID)) = .ok evm := ran
              rw [nothing.applyWriteSet] at same
              cases same
              rfl
          | finalize =>
              refine still rfl rfl ?_
              have same : Outcome.ok (n.evm.applyWriteSet (t.localRwSet shardID)) = .ok evm := ran
              rw [nothing.applyWriteSet] at same
              cases same
              rfl
      | unlock txID committed decided =>
          cases ran
          exact still rfl rfl rfl
      | abort txID aborted =>
          cases ran
          exact still rfl rfl rfl
  | _ => exact ⟨rfl, List.forall_mem_nil _⟩

/-- When a `Lock` executes, every credit due so far is paid. -/
theorem Mirrors.credits_paid (mirrors : Mirrors shardID evm₀ total es n)
    (traced : Traced shardID es n) {tx : Transaction} {remaining successful : List Transaction}
    (busy : n.work = some ⟨tx :: remaining, successful⟩) (kind : tx.txType = .lock) :
    n.evm = settledEVM shardID evm₀ es := by
  have paid : n.outstanding.filter isCredit = [] := by
    refine List.filter_eq_nil_iff.2 fun tx' member credit => ?_
    have kind' : tx'.txType = .crossCredit := by simpa [isCredit] using credit
    rw [Node.outstanding_of_busy busy] at member
    rcases List.mem_cons.1 member with rfl | behind
    · rw [kind] at kind'
      cases kind'
    · have order := traced.sorted.priority_le busy behind
      simp [kind, kind', TxType.priority] at order
  have due := mirrors.credits
  rw [ledger, List.filter_append, paid, List.append_nil] at due
  rw [mirrors.evm, due]
  rfl

/-- The balance a `Lock` looks at is the final one. -/
theorem Calm.balance_settled {tx : Transaction}
    (calm : Calm shardID (es ++ .execute tx :: rest)) (traced : Traced shardID es n)
    (member : tx ∈ ledger es n) (kind : tx.txType = .lock) (positive : 0 < toBigInt tx.value) :
    (settledEVM shardID evm₀ (es ++ .execute tx :: rest)).balance tx.fromAddr =
      (settledEVM shardID evm₀ es).balance tx.fromAddr := by
  obtain ⟨u, known, -, rfl⟩ := traced.lock_of_kind member kind
  obtain ⟨source, value⟩ := toBigInt_lockTx_pos positive
  rw [value] at positive
  unfold settledEVM
  rw [creditsDue_append, List.foldl_append]
  apply balance_creditAll
  intro credit due
  obtain ⟨t, ordered_t, decided, positive_t, home, rfl⟩ := mem_creditsDue due
  exact calm.settled es _ rest rfl u known source positive t ordered_t decided positive_t home

theorem Taken.locks_other (taken : Taken vm n e n')
    (other : ∀ tx, e = .execute tx → tx.txType ≠ .lock ∧ n.chain.locks.Absent tx.crossShardTxID) :
    n'.chain.locks = n.chain.locks := by
  cases taken with
  | ordered tx idle involved =>
      show ((n.chain.noteOrder tx).addTx _).locks = _
      rw [Chain.noteOrder_eq]
      rfl
  | granted tx rest successful busy kind chain lock => exact absurd kind (other tx rfl).1
  | refused tx rest successful busy kind chain lock result => exact absurd kind (other tx rfl).1
  | applied tx rest successful busy kind free evm ran =>
      exact Chain.locks_cleanup_of_absent (other tx rfl).2
  | _ => rfl

theorem Mirrors.held_step (calm : Calm shardID (es ++ e :: rest))
    (mirrors : Mirrors shardID evm₀ (es ++ e :: rest) es n) (traced : Traced shardID es n)
    (taken : Taken vm n e n') :
    n'.chain.locks = ((executed (es ++ [e])).filter isLock).foldl
      (Locks.lock (settledEVM shardID evm₀ (es ++ e :: rest))) Locks.empty := by
  rw [executed_append, List.filter_append, List.foldl_append, ← mirrors.held]
  by_cases locking : ∃ tx, e = .execute tx ∧ tx.txType = .lock
  · obtain ⟨tx, rfl, kind⟩ := locking
    have waits := taken.waits
    have absent := traced.absent_of_lock calm.disciplined.of_append mirrors.indexed waits kind
    have member : tx ∈ ledger es n := mem_ledger_of_outstanding waits
    obtain ⟨-, locked⟩ := taken.locks_lock kind absent
    have current : n.evm = settledEVM shardID evm₀ es := by
      cases taken with
      | skipped _ _ _ busy _ => exact mirrors.credits_paid traced busy kind
      | granted _ _ _ busy _ _ _ => exact mirrors.credits_paid traced busy kind
      | refused _ _ _ busy _ _ _ _ => exact mirrors.credits_paid traced busy kind
      | applied _ _ _ busy _ _ _ _ => exact mirrors.credits_paid traced busy kind
    have one : (executed [Event.execute tx]).filter isLock = [tx] := by simp [executed, isLock, kind]
    rw [one, locked, current]
    symm
    apply Locks.lock_congr
    · exact calm.balance_settled traced member kind
    · rw [settledEVM, settledEVM, storage_creditAll, storage_creditAll]
  · have same : n'.chain.locks = n.chain.locks := by
      apply taken.locks_other
      rintro tx rfl
      have member : tx ∈ ledger es n := mem_ledger_of_outstanding taken.waits
      have kind : tx.txType ≠ .lock := fun kind => locking ⟨tx, rfl, kind⟩
      obtain ⟨committed, known⟩ := traced.verdict_of_queued member kind (mirrors.quiet tx member).2
      exact ⟨kind, calm.absent traced mirrors.indexed (decided_of_verdict known _)⟩
    have none : (executed [e]).filter isLock = [] := by
      refine List.filter_eq_nil_iff.2 fun tx member lock => locking ⟨tx, ?_, by simpa [isLock] using lock⟩
      cases e with
      | execute tx' => rw [List.mem_singleton.1 member]
      | _ => cases member
    rw [same, none]
    rfl

/-- **One step.** -/
theorem Mirrors.step (calm : Calm shardID (es ++ e :: rest))
    (mirrors : Mirrors shardID evm₀ (es ++ e :: rest) es n) (traced : Traced shardID es n)
    (taken : Taken vm n e n') : Mirrors shardID evm₀ (es ++ e :: rest) (es ++ [e]) n' := by
  have ok : Disciplined es := calm.disciplined.of_append
  have commits : e ≠ .commitError := fun same => calm.disciplined.commits (by simp [same])
  obtain ⟨evm, fits⟩ := mirrors.evm_step calm traced taken
  refine ⟨mirrors.indexed.step traced ok taken, ?_, fun txID => mirrors.noted_step calm traced taken,
    ?_, ?_, ?_, evm, mirrors.held_step calm traced taken⟩
  · intro tx member
    rcases List.mem_append.1 ((ledger_perm es taken commits).mem_iff.1 member) with old | new
    · exact mirrors.quiet tx old
    · exact added_quiet calm traced mirrors.indexed taken new
  · have same : ∀ tx, isCredit tx = true → tx.txType.priority = 1 := by
      intro tx credit
      have kind : tx.txType = .crossCredit := by simpa [isCredit] using credit
      rw [kind]
      rfl
    rw [filter_ledger es taken commits same, mirrors.credits, mirrors.added_credits traced taken,
      creditsDue_append]
    simp [creditsDue]
  · have same : ∀ tx, isLock tx = true → tx.txType.priority = 3 := by
      intro tx lock
      have kind : tx.txType = .lock := by simpa [isLock] using lock
      rw [kind]
      rfl
    rw [filter_ledger es taken commits same, mirrors.locks]
    unfold orderedLocks
    rw [ordered_append, List.filter_append, List.map_append]
    exact congrArg _ (traced.added_locks taken)
  · intro tx member credit
    rw [executed_append] at member
    rcases List.mem_append.1 member with old | new
    · exact mirrors.fits tx old credit
    · exact fits tx new credit

end Step

/-- **Every calm run** mirrors its block history. -/
theorem mirrors_of_run {shardID : Int} {vm : VM} {evm₀ : EVMState} {total : List Event} {n : Node}
    (calm : Calm shardID total) (reached : run (step vm) (Node.start shardID evm₀) total = some n) :
    Mirrors shardID evm₀ total total n := by
  apply run_invariant (fun es => ∃ rest, total = es ++ rest) _ (Mirrors shardID evm₀ total)
    (mirrors_start shardID evm₀ total) _ total n ⟨[], (List.append_nil _).symm⟩ reached
  · rintro es e ⟨rest, rfl⟩
    exact ⟨e :: rest, by simp⟩
  · rintro es m e m' ⟨rest, split⟩ before mirrors stepped
    rw [List.append_assoc, List.singleton_append] at split
    subst split
    exact mirrors.step calm (traced_of_run calm.disciplined.of_append before) (taken_of_step stepped)

/-- When nothing waits, the state and the locks are functions of the history. -/
theorem Mirrors.final {shardID : Int} {evm₀ : EVMState} {es : List Event} {n : Node}
    (mirrors : Mirrors shardID evm₀ es es n) (done : n.outstanding = []) :
    n.evm = settledEVM shardID evm₀ es ∧ n.chain.locks =
      (orderedLocks shardID es).foldl (Locks.lock (settledEVM shardID evm₀ es)) Locks.empty := by
  have all : ledger es n = executed es := by rw [ledger, done, List.append_nil]
  have credits := mirrors.credits
  have locks := mirrors.locks
  rw [all] at credits locks
  constructor
  · rw [mirrors.evm, credits]
    rfl
  · rw [mirrors.held, locks]

/-! ## The events of a log -/

def isInput : Event → Bool
  | .decision _ _ => true
  | .order _ => true
  | _ => false

/-- The decisions and orders of a history. -/
def inputs (es : List Event) : List Event := es.filter isInput

theorem ordered_inputs (es : List Event) : ordered (inputs es) = ordered es := by
  unfold inputs ordered
  rw [List.filterMap_filter]
  refine congrArg (List.filterMap · es) (funext fun e => ?_)
  cases e <;> rfl

theorem decisions_inputs (es : List Event) : decisions (inputs es) = decisions es := by
  unfold inputs decisions
  rw [List.filterMap_filter]
  refine congrArg (List.filterMap · es) (funext fun e => ?_)
  cases e <;> rfl

theorem creditsDueAt_inputs (shardID : Int) {past past' : List Event} (e : Event)
    (same : inputs past = inputs past') :
    creditsDueAt shardID past e = creditsDueAt shardID past' e := by
  cases e with
  | decision txID committed =>
      have orders : ordered past = ordered past' := by
        rw [← ordered_inputs past, same, ordered_inputs]
      have verdicts : verdict past txID = verdict past' txID := by
        unfold verdict
        rw [← decisions_inputs past, same, decisions_inputs]
      cases committed <;> simp only [creditsDueAt, orders, verdicts]
  | _ => rfl

/-- Which credits fall due is decided by the decisions and orders alone. -/
theorem creditsDue_inputs (shardID : Int) {past past' : List Event} (es : List Event)
    (same : inputs past = inputs past') :
    creditsDue shardID past es = creditsDue shardID past' (inputs es) := by
  induction es generalizing past past' with
  | nil => rfl
  | cons e es ih =>
      have here := creditsDueAt_inputs shardID e same
      by_cases input : isInput e = true
      · have kept : inputs (e :: es) = e :: inputs es := List.filter_cons_of_pos input
        have same' : inputs (past ++ [e]) = inputs (past' ++ [e]) := by
          simpa [inputs] using same
        rw [kept, creditsDue, creditsDue, here, ih same']
      · have dropped : inputs (e :: es) = inputs es := List.filter_cons_of_neg input
        have same' : inputs (past ++ [e]) = inputs past' := by
          simpa [inputs, input] using same
        have quiet : creditsDueAt shardID past' e = [] := by
          cases e with
          | decision txID committed => exact absurd rfl input
          | _ => rfl
        rw [dropped, creditsDue, here, quiet, List.nil_append, ih same']

/-- The decisions and orders of one block. -/
def blockInputs (block : OrchestratorShardBlock) : List Event :=
  block.tpcResult.entries.map (fun r => .decision r.1 r.2) ++ block.ctToOrder.map .order

theorem ordered_blockInputs (blocks : List OrchestratorShardBlock) :
    ordered (blocks.flatMap blockInputs) = blocks.flatMap OrchestratorShardBlock.ctToOrder := by
  induction blocks with
  | nil => rfl
  | cons block blocks ih =>
      rw [List.flatMap_cons, ordered_append, ih, List.flatMap_cons]
      simp [blockInputs, ordered, List.filterMap_map]

theorem mem_decisions_blockInputs {blocks : List OrchestratorShardBlock} {txID : TxID}
    {committed : Bool} : (txID, committed) ∈ decisions (blocks.flatMap blockInputs) ↔
      ∃ block ∈ blocks, block.tpcResult.lookup txID = some committed := by
  induction blocks with
  | nil => simp [decisions]
  | cons block blocks ih =>
      have first : (txID, committed) ∈ decisions (blockInputs block) ↔
          block.tpcResult.lookup txID = some committed := by
        rw [← Option.mem_def, AList.mem_lookup_iff]
        simp [blockInputs, decisions, List.filterMap_map]
      rw [List.flatMap_cons, decisions_append, List.mem_append, first, ih]
      simp

/-- The events `es` process `blocks` in order, and execute between two blocks. -/
structure Staged (es : List Event) (blocks : List OrchestratorShardBlock) : Prop where
  whole : inputs es = blocks.flatMap blockInputs
  commits : Event.commitError ∉ es
  unsubmitted : ∀ tx, Event.submit tx ∉ es
  between : ∀ pre tx post, es = pre ++ .execute tx :: post → ∃ before after,
    blocks = before ++ after ∧ inputs pre = before.flatMap blockInputs ∧
      inputs post = after.flatMap blockInputs

theorem staged_nil : Staged [] [] :=
  ⟨rfl, List.not_mem_nil, fun _ => List.not_mem_nil, by simp⟩

theorem inputs_append (es fs : List Event) : inputs (es ++ fs) = inputs es ++ inputs fs :=
  List.filter_append ..

theorem Staged.append {es fs : List Event} {blocks blocks' : List OrchestratorShardBlock}
    (first : Staged es blocks) (second : Staged fs blocks') :
    Staged (es ++ fs) (blocks ++ blocks') where
  whole := by rw [inputs_append, first.whole, second.whole, List.flatMap_append]
  commits member := (List.mem_append.1 member).elim first.commits second.commits
  unsubmitted tx member :=
    (List.mem_append.1 member).elim (first.unsubmitted tx) (second.unsubmitted tx)
  between := by
    intro pre tx post split
    rcases List.append_eq_append_iff.1 split with ⟨more, rfl, tail⟩ | ⟨more, rfl, tail⟩
    · obtain ⟨before, after, rfl, earlier, later⟩ := second.between more tx post tail
      refine ⟨blocks ++ before, after, by simp, ?_, later⟩
      rw [inputs_append, first.whole, earlier, List.flatMap_append]
    · cases more with
      | nil =>
          obtain ⟨before, after, rfl, earlier, later⟩ := second.between [] tx post tail.symm
          refine ⟨blocks ++ before, after, by simp, ?_, later⟩
          have whole := first.whole
          rw [List.append_nil] at whole
          rw [whole, List.flatMap_append, ← earlier]
          simp [inputs]
      | cons e more =>
          obtain ⟨rfl, rfl⟩ := List.cons_eq_cons.1 tail
          obtain ⟨before, after, rfl, earlier, later⟩ := first.between pre tx more rfl
          refine ⟨before, after ++ blocks', by simp, earlier, ?_⟩
          show inputs (more ++ fs) = _
          rw [inputs_append, later, second.whole, List.flatMap_append]

/-- Taking in the next block. -/
theorem staged_blockEvents {c : Chain} {block : OrchestratorShardBlock}
    (next : block.height = c.lastOrchestratorHeight + 1) : Staged (blockEvents c block) [block] := by
  have fresh : ¬block.height ≤ c.lastOrchestratorHeight := by omega
  have shape : blockEvents c block = blockInputs block ++ [.advance block.height] := by
    rw [blockEvents, if_neg fresh]
    rfl
  have all : inputs (blockInputs block) = blockInputs block := by
    refine List.filter_eq_self.2 fun e member => ?_
    simp only [blockInputs, List.mem_append, List.mem_map] at member
    rcases member with ⟨r, -, rfl⟩ | ⟨tx, -, rfl⟩ <;> rfl
  refine ⟨?_, ?_, ?_, ?_⟩
  · rw [shape, inputs_append, all]
    simp [inputs, isInput]
  · simp [shape, blockInputs]
  · simp [shape, blockInputs]
  · intro pre tx post split
    have member : Event.execute tx ∈ blockEvents c block := by simp [split]
    simp [shape, blockInputs] at member

/-- Producing a block takes in nothing. -/
theorem staged_produceEvents (c : Chain) (stateRoot : Hash) :
    Staged (produceEvents c (some stateRoot)) [] := by
  have none : ∀ e ∈ produceEvents c (some stateRoot), isInput e = false := by
    intro e member
    simp only [produceEvents, List.mem_append, List.mem_cons, List.mem_map, List.not_mem_nil,
      or_false] at member
    rcases member with (rfl | ⟨tx, -, rfl⟩) | rfl <;> rfl
  refine ⟨?_, by simp [produceEvents], by simp [produceEvents], ?_⟩
  · exact List.filter_eq_nil_iff.2 fun e member => by simp [none e member]
  · intro pre tx post split
    refine ⟨[], [], rfl, ?_, ?_⟩
    · exact List.filter_eq_nil_iff.2 fun e member => by
        simp [none e (by simp [split, member])]
    · exact List.filter_eq_nil_iff.2 fun e member => by
        simp [none e (by simp [split, member])]

/-! ## Live processing and replay -/

/-- What makes a log replayable on one shard: its decided transactions have nothing to lock
here, and no credit of a later block goes to the sender of a transfer ordered here before. -/
structure Replayable (shardID : Int) (blocks : List OrchestratorShardBlock) : Prop where
  free : ∀ t ∈ blocks.flatMap OrchestratorShardBlock.ctToOrder,
    (∃ block ∈ blocks, t.id ∈ block.tpcResult) → NothingToLock shardID t
  settled : ∀ before after, blocks = before ++ after →
    ∀ u ∈ before.flatMap OrchestratorShardBlock.ctToOrder, u.fromShard = shardID →
    0 < toBigInt u.value → ∀ t ∈ blocks.flatMap OrchestratorShardBlock.ctToOrder,
    (∃ block ∈ after, block.tpcResult.lookup t.id = some true) → 0 < toBigInt t.value →
    shardOf t.toAddr = shardID → t.toAddr ≠ u.fromAddr

theorem Staged.calm {shardID : Int} {es : List Event} {blocks : List OrchestratorShardBlock}
    (staged : Staged es blocks) (replayable : Replayable shardID blocks)
    (distinct : ((blocks.flatMap OrchestratorShardBlock.ctToOrder).map CrossShardTx.id).Nodup) :
    Calm shardID es := by
  have orders : ordered es = blocks.flatMap OrchestratorShardBlock.ctToOrder := by
    rw [← ordered_inputs, staged.whole, ordered_blockInputs]
  refine ⟨⟨by rwa [orders], staged.commits⟩, staged.unsubmitted, ?_, ?_⟩
  · rintro t member ⟨committed, decided⟩
    rw [orders] at member
    rw [← decisions_inputs, staged.whole, mem_decisions_blockInputs] at decided
    obtain ⟨block, listed, found⟩ := decided
    refine replayable.free t member ⟨block, listed, ?_⟩
    exact mem_of_lookup_eq_some found
  · intro pre tx post split u earlier source positive t member decided
    obtain ⟨before, after, cut, first, second⟩ := staged.between pre tx post split
    rw [orders] at member
    rw [← ordered_inputs, first, ordered_blockInputs] at earlier
    rw [← decisions_inputs, second, mem_decisions_blockInputs] at decided
    exact replayable.settled before after cut u earlier source positive t member decided

namespace Server

/-- A shard that processes each block as it arrives and produces a block after each. -/
def liveRequests (stateRoot : Nat → Hash) (blocks : List OrchestratorShardBlock) : List Request :=
  blocks.flatMap fun block => [.deliver block, .produce (stateRoot block.height)]

/-- An orchestrator that answers every query from the log. -/
def logView (blocks : List OrchestratorShardBlock) : OrchestratorView where
  latest := some blocks.length
  fetch height :=
    match blocks[height - 1]? with
    | some block => .block block
    | none => .notFound

/-- Produce blocks until the queue is empty, at most `fuel` of them. -/
def produceUntilEmpty (vm : VM) (simulate : SimulateCall) (stateRoot : Nat → Hash) :
    Nat → Server → Option Server
  | 0, s => if s.chain.currentTxs = [] then some s else none
  | fuel + 1, s =>
      if s.chain.currentTxs = [] then some s
      else (s.serve vm simulate (.produce (stateRoot fuel))).bind
        (produceUntilEmpty vm simulate stateRoot fuel)

/-- The blocks that follow the last processed one, in order. -/
def Follows (c : Chain) (blocks : List OrchestratorShardBlock) : Prop :=
  blocks.map OrchestratorShardBlock.height =
    List.range' (c.lastOrchestratorHeight + 1) blocks.length

theorem Follows.cons {c : Chain} {block : OrchestratorShardBlock}
    {blocks : List OrchestratorShardBlock} (follows : Follows c (block :: blocks)) :
    block.height = c.lastOrchestratorHeight + 1 ∧
      Follows (c.processOrchestratorBlock block) blocks := by
  unfold Follows at follows
  rw [List.map_cons, List.length_cons, List.range'_succ] at follows
  obtain ⟨first, rest⟩ := List.cons_eq_cons.1 follows
  refine ⟨first, ?_⟩
  have moved := lastOrchestratorHeight_process c block
  have last : (c.processOrchestratorBlock block).lastOrchestratorHeight =
      c.lastOrchestratorHeight + 1 := by omega
  rw [Follows, last, rest]

theorem staged_intakeEvents {c : Chain} {blocks : List OrchestratorShardBlock}
    (follows : Follows c blocks) : Staged (intakeEvents c blocks) blocks := by
  induction blocks generalizing c with
  | nil => exact staged_nil
  | cons block blocks ih =>
      obtain ⟨next, later⟩ := follows.cons
      exact (staged_blockEvents next).append (ih later)

/-- A block that the empty buffer expects is taken in at once. -/
theorem ready_of_next {s : Server} {block : OrchestratorShardBlock}
    (none_buffered : s.blockBuffer.buffered = ∅) (next : block.height = s.blockBuffer.expected) :
    s.ready block = [block] ∧ (s.blockBuffer.processBlock block).2.buffered = ∅ ∧
      (s.blockBuffer.processBlock block).2.expected = nextHeight block.height := by
  have len : (∅ : FMap Nat OrchestratorShardBlock).len = 0 := rfl
  simp [ready, BlockBuffer.processBlock, next, len, BlockBuffer.drain, none_buffered]

/-- Live processing takes in the blocks of the log one by one. -/
theorem staged_live {vm : VM} {simulate : SimulateCall} {stateRoot : Nat → Hash}
    {blocks : List OrchestratorShardBlock} {s s' : Server} (follows : Follows s.chain blocks)
    (bounded : ∀ block ∈ blocks, Bounded block) (inStep : s.InStep)
    (none_buffered : s.blockBuffer.buffered = ∅)
    (ran : run (serve vm simulate) s (liveRequests stateRoot blocks) = some s') :
    Staged (s.history vm simulate (liveRequests stateRoot blocks)) blocks := by
  induction blocks generalizing s with
  | nil => exact staged_nil
  | cons block blocks ih =>
      obtain ⟨next, later⟩ := follows.cons
      obtain ⟨ready, empty, expected⟩ := ready_of_next none_buffered (next.trans inStep.symm)
      obtain ⟨s₁, delivered, ran₁⟩ := run_cons_eq_some.1 ran
      obtain ⟨s₂, produced, ran₂⟩ := run_cons_eq_some.1 ran₁
      have shape : s₁ = ⟨s.evmState, s.chain.processOrchestratorBlock block,
          (s.blockBuffer.processBlock block).2⟩ := by
        cases delivered
        rw [handleOrchestratorShardBlock_eq, ready]
        rfl
      have intake : s.requestEvents simulate (.deliver block) = blockEvents s.chain block := by
        show intakeEvents s.chain (s.ready block) = _
        rw [ready]
        exact List.append_nil _
      have step₁ : s₁.InStep := by
        have moved := lastOrchestratorHeight_process s.chain block
        have advanced := nextHeight_of_lt (bounded block (List.mem_cons_self ..))
        rw [InStep, shape]
        dsimp only
        omega
      obtain ⟨p, ran_p, rfl⟩ := Option.map_eq_some_iff.1 produced
      have events := produceBlock_run vm s₁.chain s₁.evmState (some (stateRoot block.height))
      rw [ran_p] at events
      have last : p.chain.lastOrchestratorHeight = s₁.chain.lastOrchestratorHeight :=
        last_of_run (by simp [produceEvents]) events
      have rest := ih (s := { s₁ with chain := p.chain, evmState := p.evm }) (by
          rw [Follows, last, shape]
          exact later)
        (fun b member => bounded b (List.mem_cons_of_mem _ member))
        (by
          rw [InStep]
          dsimp only
          rw [last]
          exact step₁)
        (by
          rw [shape]
          exact empty) ran₂
      have split : s.history vm simulate (liveRequests stateRoot (block :: blocks)) =
          blockEvents s.chain block ++ (produceEvents s₁.chain (some (stateRoot block.height)) ++
            history vm simulate { s₁ with chain := p.chain, evmState := p.evm }
              (liveRequests stateRoot blocks)) := by
        show history vm simulate s (.deliver block :: .produce (stateRoot block.height) :: _) = _
        rw [history, delivered, intake]
        dsimp only
        rw [history, produced]
        rfl
      rw [split]
      exact (staged_blockEvents next).append ((staged_produceEvents _ _).append rest)

theorem replay_logView (blocks before after : List OrchestratorShardBlock) (s : Server)
    (split : blocks = before ++ after) :
    replay (logView blocks).fetch after.length (before.length + 1) s =
      after.foldl processOrchestratorBlock s := by
  induction after generalizing before s with
  | nil => rfl
  | cons block after ih =>
      have fetched : (logView blocks).fetch (before.length + 1) = .block block := by
        simp [logView, split]
      have rest := ih (before ++ [block]) (s.processOrchestratorBlock block) (by simp [split])
      rw [List.length_append, List.length_singleton] at rest
      rw [List.length_cons, replay, fetched, List.foldl_cons]
      exact rest

/-- Recovery processes the blocks of the log one after the other. -/
theorem newServer_logView (shardID : Int) (evm : EVMState) (blocks : List OrchestratorShardBlock) :
    newServer shardID evm (logView blocks) =
      { fresh shardID evm with
        chain := blocks.foldl Chain.processOrchestratorBlock (Chain.newChain shardID) } := by
  have all := replay_logView blocks [] blocks (fresh shardID evm) rfl
  rw [foldl_processOrchestratorBlock] at all
  show (if blocks.length ≤ 0 then _ else replay _ (blocks.length - 0) (0 + 1) _) = _
  split
  · rename_i short
    rw [List.length_eq_zero_iff.1 (Nat.le_zero.1 short)]
    rfl
  · exact all

theorem currentTxs_produceBlock {vm : VM} {c : Chain} {evm : EVMState} {stateRoot : Hash}
    {p : Produced} (produced : c.produceBlock vm evm (some stateRoot) = some p) :
    p.chain.currentTxs = [] := by
  unfold Chain.produceBlock at produced
  obtain ⟨b, -, rfl⟩ := Option.map_eq_some_iff.1 produced
  rfl

theorem currentTxs_live {vm : VM} {simulate : SimulateCall} {stateRoot : Nat → Hash}
    {blocks : List OrchestratorShardBlock} {s s' : Server} (done : s.chain.currentTxs = [])
    (ran : run (serve vm simulate) s (liveRequests stateRoot blocks) = some s') :
    s'.chain.currentTxs = [] := by
  induction blocks generalizing s with
  | nil =>
      cases ran
      exact done
  | cons block blocks ih =>
      obtain ⟨s₁, -, ran₁⟩ := run_cons_eq_some.1 ran
      obtain ⟨s₂, produced, ran₂⟩ := run_cons_eq_some.1 ran₁
      obtain ⟨p, ran_p, rfl⟩ := Option.map_eq_some_iff.1 produced
      exact ih (currentTxs_produceBlock ran_p) ran₂

theorem produceUntilEmpty_of_empty {vm : VM} {simulate : SimulateCall} {stateRoot : Nat → Hash}
    (fuel : Nat) {s : Server} (done : s.chain.currentTxs = []) :
    s.produceUntilEmpty vm simulate stateRoot fuel = some s := by
  cases fuel <;> simp [produceUntilEmpty, done]

end Server

/-! ## Production succeeds -/

/-- Executing `tx` cannot panic, in any state. -/
def Payable (tx : Transaction) : Prop :=
  tx.txType ≠ .crossDebit ∧ tx.txType ≠ .localTx ∧
    (isCredit tx = true → (toBigInt tx.value).natAbs < 2 ^ 256)

theorem executeTx_of_payable (vm : VM) (e : EVMState) {tx : Transaction} (payable : Payable tx) :
    e.executeTx vm tx ≠ .panic := by
  obtain ⟨undebited, foreign, fits⟩ := payable
  unfold EVMState.executeTx
  split
  · rename_i kind
    exact absurd kind foreign
  · rename_i kind
    exact absurd kind undebited
  · rename_i kind
    rw [EVMState.credit, mustFromBig, if_pos (fits (by simp [isCredit, kind]))]
    exact nofun
  all_goals exact nofun

theorem executeAll_of_payable (vm : VM) (s : BlockState) (txs : List Transaction)
    (payable : ∀ tx ∈ txs, Payable tx) : ∃ s', BlockState.executeAll vm s txs = some s' := by
  induction txs generalizing s with
  | nil => exact ⟨s, rfl⟩
  | cons tx txs ih =>
      have one : ∃ s₁, s.executeOne vm tx = some s₁ := by
        unfold BlockState.executeOne
        split
        · exact ⟨_, rfl⟩
        · split
          · exact ⟨_, rfl⟩
          · split
            · rename_i panicked
              exact absurd panicked (executeTx_of_payable vm s.evm (payable tx (List.mem_cons_self ..)))
            · exact ⟨_, rfl⟩
            · exact ⟨_, rfl⟩
      obtain ⟨s₁, ran⟩ := one
      rw [BlockState.executeAll, ran, Option.bind_some]
      exact ih s₁ fun tx' member => payable tx' (List.mem_cons_of_mem _ member)

theorem produceBlock_of_payable (vm : VM) (c : Chain) (evm : EVMState) (stateRoot : Hash)
    (payable : ∀ tx ∈ c.currentTxs, Payable tx) :
    ∃ p, c.produceBlock vm evm (some stateRoot) = some p := by
  obtain ⟨s, ran⟩ := executeAll_of_payable vm ⟨c, evm, []⟩
    (Chain.sortTransactionsByPriority c.currentTxs) (by
      intro tx member
      exact payable tx ((byKey_perm _ _).mem_iff.1 member))
  simp only [Chain.produceBlock, ran]
  exact ⟨_, rfl⟩

/-! ## Agreement -/

/-- The same balances, contract storage, slot locks and fund locks. -/
structure SameState (s s' : Server) : Prop where
  balances : s.evmState.balance = s'.evmState.balance
  storage : s.evmState.storage = s'.evmState.storage
  slotLocks : s.chain.slotHolder = s'.chain.slotHolder
  fundLocks : s.chain.locked.get = s'.chain.locked.get
  reserved : s.chain.getLockedAmountForAddress = s'.chain.getLockedAmountForAddress

theorem sameState_of_locks {s s' : Server} (evm : s.evmState = s'.evmState)
    (locks : s.chain.locks = s'.chain.locks) : SameState s s' where
  balances := by rw [evm]
  storage := by rw [evm]
  slotLocks := congrArg Locks.slots locks
  fundLocks := congrArg Locks.funds locks
  reserved := by
    funext a
    rw [← Chain.amount_locks, locks, Chain.amount_locks]

/-- Two finished runs over one log agree. -/
theorem sameState_of_runs {shardID : Int} {vm : VM} {evm : EVMState} {es fs : List Event}
    {s s' : Server} (calm : Calm shardID es) (calm' : Calm shardID fs) (same : inputs es = inputs fs)
    (ran : run (step vm) (Node.start shardID evm) es = some ⟨s.chain, s.evmState, none⟩)
    (ran' : run (step vm) (Node.start shardID evm) fs = some ⟨s'.chain, s'.evmState, none⟩)
    (done : s.chain.currentTxs = []) (done' : s'.chain.currentTxs = []) : SameState s s' := by
  obtain ⟨state, locks⟩ := (mirrors_of_run calm ran).final done
  obtain ⟨state', locks'⟩ := (mirrors_of_run calm' ran').final done'
  have final : settledEVM shardID evm es = settledEVM shardID evm fs := by
    unfold settledEVM
    rw [creditsDue_inputs shardID es rfl, same, ← creditsDue_inputs shardID fs rfl]
  have orders : orderedLocks shardID es = orderedLocks shardID fs := by
    unfold orderedLocks
    rw [← ordered_inputs es, same, ordered_inputs]
  apply sameState_of_locks
  · exact state.trans (final.trans state'.symm)
  · rw [final, orders] at locks
    exact locks.trans locks'.symm

namespace Server

/-- **Recovery by replay.**  On a replayable log, a fresh shard that replays all blocks and then
produces until its queue is empty ends in the state of a shard that processed the blocks live. -/
theorem replay_agrees_with_live (vm : VM) (simulate : SimulateCall) (shardID : Int) (evm : EVMState)
    (stateRoot stateRoot' : Nat → Hash) (blocks : List OrchestratorShardBlock) (live : Server)
    (fuel : Nat)
    (numbered : blocks.map OrchestratorShardBlock.height = List.range' 1 blocks.length)
    (bounded : ∀ block ∈ blocks, Bounded block)
    (distinct : ((blocks.flatMap OrchestratorShardBlock.ctToOrder).map CrossShardTx.id).Nodup)
    (replayable : Replayable shardID blocks)
    (ran : run (serve vm simulate) (fresh shardID evm) (liveRequests stateRoot blocks) =
      some live) :
    ∃ recovered, (newServer shardID evm (logView blocks)).produceUntilEmpty vm simulate stateRoot'
      (fuel + 1) = some recovered ∧ SameState recovered live := by
  have follows : Follows (Chain.newChain shardID) blocks := numbered
  have staged : Staged ((fresh shardID evm).history vm simulate (liveRequests stateRoot blocks))
      blocks := staged_live (s := fresh shardID evm) follows bounded rfl rfl ran
  have calm := staged.calm replayable distinct
  have done : live.chain.currentTxs = [] := currentTxs_live (s := fresh shardID evm) rfl ran
  have lived := history_run ran
  have mirrors := mirrors_of_run calm lived
  -- replay: the intake of the whole log
  have staged' := staged_intakeEvents follows
  have calm' := staged'.calm replayable distinct
  have same := staged'.whole.trans staged.whole.symm
  have taken := intakeEvents_run vm (Chain.newChain shardID) evm blocks
  have mirrors' := mirrors_of_run calm' taken
  rw [newServer_logView]
  by_cases empty : (blocks.foldl Chain.processOrchestratorBlock
      (Chain.newChain shardID)).currentTxs = []
  · refine ⟨_, produceUntilEmpty_of_empty _ empty, ?_⟩
    exact sameState_of_runs calm' calm same taken lived empty done
  · -- the credits of the queue are those that the live shard paid
    have payable : ∀ tx ∈ (blocks.foldl Chain.processOrchestratorBlock
        (Chain.newChain shardID)).currentTxs, Payable tx := by
      intro tx member
      have waits : tx ∈ ledger (intakeEvents (Chain.newChain shardID) blocks) _ :=
        mem_ledger_of_outstanding (n := ⟨_, evm, none⟩) member
      refine ⟨(mirrors'.quiet tx waits).1, (mirrors'.quiet tx waits).2, fun credit => ?_⟩
      have due : tx ∈ creditsDue shardID [] (intakeEvents (Chain.newChain shardID) blocks) := by
        rw [← mirrors'.credits]
        exact List.mem_filter.2 ⟨waits, credit⟩
      rw [creditsDue_inputs shardID _ rfl, same, ← creditsDue_inputs shardID _ rfl,
        ← mirrors.credits] at due
      have listed := (List.mem_filter.1 due).1
      refine mirrors.fits tx ?_ credit
      rcases List.mem_append.1 listed with paid | left
      · exact paid
      · rw [Node.outstanding_of_idle rfl, done] at left
        cases left
    obtain ⟨p, produced⟩ := produceBlock_of_payable vm _ evm (stateRoot' fuel) payable
    have quiet := currentTxs_produceBlock produced
    refine ⟨⟨p.evm, p.chain, BlockBuffer.newBlockBuffer 1 maxBlockBuffer⟩, ?_, ?_⟩
    · rw [produceUntilEmpty, if_neg empty, serve]
      show Option.bind (Option.map _ (Chain.produceBlock vm _ evm _)) _ = _
      rw [produced]
      exact produceUntilEmpty_of_empty fuel quiet
    · have events := produceBlock_run vm (blocks.foldl Chain.processOrchestratorBlock
        (Chain.newChain shardID)) evm (some (stateRoot' fuel))
      rw [produced] at events
      have whole := staged'.append (staged_produceEvents (blocks.foldl
        Chain.processOrchestratorBlock (Chain.newChain shardID)) (stateRoot' fuel))
      rw [List.append_nil] at whole
      refine sameState_of_runs (whole.calm replayable distinct) calm
        (whole.whole.trans staged.whole.symm) ?_ lived quiet done
      exact run_append_eq_some.2 ⟨_, taken, events⟩

end Server

namespace ReplayPole

def alice : Address := 0x100
def bob : Address := 0x200
def carol : Address := 0x301

def funded : EVMState := ⟨fun a => if a = alice then 10 else 0, fun _ _ => 0, fun _ => []⟩

/-- A payment between two accounts of shard 0, the only shard it involves. -/
def payBob : CrossShardTx where
  id := "tx-1"
  fromShard := 0
  fromAddr := alice
  toAddr := bob
  value := some 4
  rwSet := []

/-- Shard 0 votes for the payment, and the next block commits it. -/
def committedPayment : List OrchestratorShardBlock :=
  [⟨1, ∅, [payBob]⟩, ⟨2, (∅ : AList _).insert "tx-1" true, []⟩]

/-- A payment from shard 1, of which shard 0 only sees the credit. -/
def payAlice : CrossShardTx where
  id := "tx-2"
  fromShard := 1
  fromAddr := carol
  toAddr := alice
  value := some 7
  rwSet := [⟨alice, ⟨0⟩, [], []⟩]

/-- The credit arrives with the block that orders a payment of the same money. -/
def creditThenPayment : List OrchestratorShardBlock :=
  [⟨1, ∅, [payAlice]⟩, ⟨2, (∅ : AList _).insert "tx-2" true, [payBob]⟩]

def vm : VM := ⟨fun e _ _ _ _ _ => .ok e⟩

def simulate : Server.SimulateCall := fun _ _ _ _ _ _ => .error ""

theorem replayable_creditThenPayment : Replayable 0 creditThenPayment where
  free := by
    intro t member decided
    have cases_t : t = payAlice ∨ t = payBob := by simpa [creditThenPayment] using member
    rcases cases_t with rfl | rfl
    · exact ⟨by decide, by decide, by decide⟩
    · have undecided : ∀ block ∈ creditThenPayment, payBob.id ∉ block.tpcResult := by
        decide
      obtain ⟨block, listed, found⟩ := decided
      exact absurd found (undecided block listed)
  settled := by
    intro before after split u member source
    -- the payment of this shard is ordered by the last block
    match before, split with
    | [], _ => cases member
    | [first], split =>
        cases split
        simp only [List.flatMap_cons, List.flatMap_nil, List.append_nil, List.mem_singleton] at member
        subst member
        cases source
    | first :: second :: more, split =>
        have ended : after = [] := by
          have lengths := congrArg List.length split
          simp only [creditThenPayment, List.length_append, List.length_cons, List.length_nil]
            at lengths
          exact List.length_eq_zero_iff.1 (by omega)
        rintro - t - ⟨block, listed, -⟩
        rw [ended] at listed
        cases listed

end ReplayPole

open ReplayPole in
/-- Replay commits the payment before its `Lock` has run: Bob is paid, Alice is not charged, and
the reservation taken afterwards stays. -/
theorem replay_skips_the_debit :
    ∃ live recovered,
      run (Server.serve vm simulate) (Server.fresh 0 funded)
        (Server.liveRequests (fun _ => 0) committedPayment) = some live ∧
      (∃ block ∈ live.chain.blocks, block.tpcPrepare.get "tx-1" = some true) ∧
      (Server.newServer 0 funded (Server.logView committedPayment)).produceUntilEmpty vm simulate
        (fun _ => 0) 1 = some recovered ∧
      live.evmState.balance alice = 6 ∧ live.evmState.balance bob = 4 ∧
      live.chain.locked.get "tx-1" = none ∧
      recovered.evmState.balance alice = 10 ∧ recovered.evmState.balance bob = 4 ∧
      recovered.chain.locked.get "tx-1" = some ⟨alice, 4⟩ := by
  refine ⟨_, _, rfl, ?_, rfl, by decide +kernel, by decide +kernel, by decide +kernel,
    by decide +kernel, by decide +kernel, by decide +kernel⟩
  decide +kernel

open ReplayPole in
/-- A credit from another shard and a payment that is still undecided are recovered. -/
theorem credit_and_reservation_recovered :
    ∃ live recovered,
      run (Server.serve vm simulate) (Server.fresh 0 funded)
        (Server.liveRequests (fun _ => 0) creditThenPayment) = some live ∧
      (Server.newServer 0 funded (Server.logView creditThenPayment)).produceUntilEmpty vm simulate
        (fun _ => 0) 1 = some recovered ∧
      recovered.evmState.balance alice = 17 ∧
      recovered.chain.locked.get "tx-1" = some ⟨alice, 4⟩ ∧ SameState recovered live := by
  obtain ⟨recovered, ran, same⟩ := Server.replay_agrees_with_live vm simulate 0 funded (fun _ => 0)
    (fun _ => 0) creditThenPayment _ 0 (by decide) (by unfold Bounded; decide) (by decide)
    replayable_creditThenPayment rfl
  refine ⟨_, recovered, rfl, ran, ?_, ?_, same⟩
  · rw [same.balances]
    decide +kernel
  · rw [same.fundLocks]
    decide +kernel

end CrossShard.Shard
