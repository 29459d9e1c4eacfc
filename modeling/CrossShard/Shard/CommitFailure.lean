/-
# Shard.CommitFailure -- what a failed commit leaves for the next attempt

`ProduceBlock` executes its queue before it commits.  When `EVMState.Commit` fails, the queue, the
votes, the tables and the executed state stay, and the next attempt executes the whole queue once
more, with whatever has been queued since.  Write sets and releases survive that: a second write
of the same values and a second release change nothing, and both come before everything that
reads them.  Money moves twice, a `Lock` reserves its funds twice, and an abort that was to follow
the new `Lock`s has already freed their slots.

* `AppliesOnce`: after failed attempts a block leaves what it would have left without them.
* `Ahead`: how far the state after failed attempts is ahead of the other one, as long as a list
  of transactions is still to be executed again.
* `Ahead.executeOne`, `Ahead.executeAll`: executing the rest closes the distance.
* `Padded`: transactions that do nothing make no difference to the others.
* `applied_once_iff`: the types of transactions for which nothing can go wrong, exactly.
-/
import CrossShard.Shard.BlockReplay

namespace CrossShard.Shard

set_option autoImplicit false

open CrossShard.Library CrossShard.Protocol

/-! ## Failed attempts -/

/-- In each round transactions are queued, and then a block is executed and fails to commit. -/
def failedRounds (vm : VM) :
    Chain → EVMState → List (List Transaction) → Option (Chain × EVMState)
  | c, evm, [] => some (c, evm)
  | c, evm, added :: rounds =>
      ((c.addTxs added).produceBlock vm evm none).bind fun failed =>
        failedRounds vm failed.chain failed.evm rounds

/-- What a block leaves: the state, the locks, and the votes it carries. -/
structure Aftermath where
  evm : EVMState
  locks : Locks
  votes : Option (FMap TxID Bool)

def Produced.aftermath (p : Produced) : Aftermath :=
  ⟨p.evm, p.chain.locks, p.block.map StateShardBlock.tpcPrepare⟩

/-- **Every queued transaction is applied once.**  A block that is committed after the failed
rounds leaves what it leaves in a run without the failed attempts. -/
def AppliesOnce (vm : VM) (c : Chain) (evm : EVMState) (rounds : List (List Transaction))
    (more : List Transaction) (stateRoot : Hash) : Prop :=
  ∀ c' evm', failedRounds vm c evm rounds = some (c', evm') →
    ((c'.addTxs more).produceBlock vm evm' (some stateRoot)).map Produced.aftermath =
      ((c.addTxs (rounds.flatten ++ more)).produceBlock vm evm (some stateRoot)).map
        Produced.aftermath

/-- The types whose transactions may be executed again. -/
def Retriable : TxType → Prop
  | .localTx | .crossDebit | .crossCredit | .crossAbort | .lock => False
  | _ => True

/-! ## Two moments that cannot be told apart -/

/-- Twins that have also cast the same votes. -/
structure Level (s r : BlockState) : Prop extends Twin s r where
  votes : r.chain.prepares = s.chain.prepares

section Level

variable {vm : VM} {s r : BlockState}

theorem Level.symm (level : Level s r) : Level r s :=
  ⟨⟨level.evm.symm, level.locks.symm⟩, level.votes.symm⟩

theorem Level.trans {t : BlockState} (first : Level s r) (second : Level r t) : Level s t :=
  ⟨⟨second.evm.trans first.evm, second.locks.trans first.locks⟩, second.votes.trans first.votes⟩

theorem Level.executeOne (level : Level s r) (tx : Transaction) :
    Option.Rel Level (s.executeOne vm tx) (r.executeOne vm tx) := by
  cases ran : s.executeOne vm tx with
  | some s' =>
      obtain ⟨_, r', ran', twin, -, -, votes⟩ := level.toTwin.executeOne ran
      rw [ran']
      exact .some ⟨twin, votes level.votes⟩
  | none =>
      cases ran' : r.executeOne vm tx with
      | none => exact .none
      | some r' =>
          obtain ⟨_, s', again, -⟩ := level.symm.toTwin.executeOne ran'
          rw [ran] at again
          cases again

theorem Level.aftermath (level : Level s r) (stateRoot : Hash) :
    (r.produced (some stateRoot)).aftermath = (s.produced (some stateRoot)).aftermath := by
  show Aftermath.mk r.evm r.chain.locks (some r.chain.prepares) =
    ⟨s.evm, s.chain.locks, some s.chain.prepares⟩
  rw [level.evm, level.locks, level.votes]

theorem aftermath_of_rel {a b : Option BlockState} (level : Option.Rel Level a b)
    (stateRoot : Hash) :
    (b.map fun s => s.produced (some stateRoot)).map Produced.aftermath =
      (a.map fun s => s.produced (some stateRoot)).map Produced.aftermath := by
  cases level with
  | none => rfl
  | some level => exact congrArg some (level.aftermath stateRoot)

end Level

/-! ## Executing the queue again -/

/-- `r` has done in advance a part of what the transactions of `rest` will do from `s`: some of
the slots they write have changed already, and some of the locks they release are gone. -/
structure Ahead (rest : List Transaction) (s r : BlockState) : Prop where
  sorted : rest.Pairwise fun tx tx' => tx.txType.priority ≤ tx'.txType.priority
  balance : r.evm.balance = s.evm.balance
  code : r.evm.code = s.evm.code
  storage : ∀ a slot, r.evm.storage a slot ≠ s.evm.storage a slot →
    ∃ tx ∈ rest, written tx a slot ≠ none
  locks : ∃ early ⊆ rest, (∀ tx ∈ early, Retriable tx.txType) ∧
    r.chain.locks = early.foldl Locks.cleanup s.chain.locks
  votes : r.chain.prepares = s.chain.prepares

section Ahead

variable {vm : VM} {s s' r : BlockState} {tx : Transaction} {rest : List Transaction}

theorem writes_of_written {a : Address} {slot : Hash} (writes : written tx a slot ≠ none) :
    tx.txType = .crossWriteSet ∨ tx.txType = .finalize := by
  unfold written at writes
  split at writes
  · assumption
  · exact absurd rfl writes

theorem Level.ahead (level : Level s r)
    (sorted : rest.Pairwise fun tx tx' => tx.txType.priority ≤ tx'.txType.priority) :
    Ahead rest s r where
  sorted := sorted
  balance := by rw [level.evm]
  code := by rw [level.evm]
  storage a slot differs := absurd (by rw [level.evm]) differs
  locks := ⟨[], List.nil_subset _, List.forall_mem_nil _, level.locks⟩
  votes := level.votes

/-- What may be executed again and does not run before the `Lock`s releases nothing. -/
theorem cleanup_of_late (retriable : Retriable tx.txType) (late : 3 ≤ tx.txType.priority)
    (l : Locks) : l.cleanup tx = l := by
  unfold Locks.cleanup
  cases kind : tx.txType <;> simp_all [Retriable, TxType.priority]

/-- Once only `Lock`s and what follows them is left, nothing is left of the distance. -/
theorem Ahead.level (ahead : Ahead rest s r) (late : ∀ tx ∈ rest, 3 ≤ tx.txType.priority) :
    Level s r := by
  refine ⟨⟨EVMState.ext ahead.balance ?_ ahead.code, ?_⟩, ahead.votes⟩
  · funext a slot
    by_contra differs
    obtain ⟨tx, member, writes⟩ := ahead.storage a slot differs
    have := late tx member
    rcases writes_of_written writes with kind | kind <;> simp [kind, TxType.priority] at this
  · obtain ⟨early, part, retriable, same⟩ := ahead.locks
    rw [same]
    clear same
    induction early with
    | nil => rfl
    | cons tx early ih =>
        obtain ⟨member, part⟩ := List.cons_subset.1 part
        obtain ⟨head, retriable⟩ := List.forall_mem_cons.1 retriable
        rw [List.foldl_cons, cleanup_of_late head (late tx member)]
        exact ih part retriable

/-- What runs before the `Lock`s does the same to two states with the same balances. -/
theorem executeTx_early (vm : VM) {e e' : EVMState} (early : tx.txType.priority < 3)
    (balance : e'.balance = e.balance) :
    (e.executeTx vm tx = .panic ∧ e'.executeTx vm tx = .panic) ∨
      (tx.txType = .crossDebit ∧
        ∃ msg, e.executeTx vm tx = .error msg ∧ e'.executeTx vm tx = .error msg) ∨
      (e.executeTx vm tx = .ok (e.effect tx) ∧ e'.executeTx vm tx = .ok (e'.effect tx)) := by
  have fits : ∀ amt, mustFromBig (toBigInt tx.value) = some amt → amt = Transaction.amount tx := by
    intro amt read
    unfold mustFromBig at read
    split at read
    · exact (Option.some.inj read).symm
    · cases read
  cases kind : tx.txType with
  | crossDebit =>
      simp only [EVMState.executeTx, EVMState.effect, EVMState.debit, kind, balance]
      cases read : mustFromBig (toBigInt tx.value) with
      | none => exact Or.inl ⟨rfl, rfl⟩
      | some amt =>
          rw [fits amt read]
          dsimp only
          split
          · exact Or.inr (Or.inl ⟨trivial, _, rfl, rfl⟩)
          · exact Or.inr (Or.inr ⟨rfl, rfl⟩)
  | crossCredit =>
      simp only [EVMState.executeTx, EVMState.effect, EVMState.credit, kind]
      cases read : mustFromBig (toBigInt tx.value) with
      | none => exact Or.inl ⟨rfl, rfl⟩
      | some amt =>
          rw [fits amt read]
          exact Or.inr (Or.inr ⟨rfl, rfl⟩)
  | crossWriteSet =>
      exact Or.inr (Or.inr ⟨by simp only [EVMState.executeTx, EVMState.effect, kind],
        by simp only [EVMState.executeTx, EVMState.effect, kind]⟩)
  | finalize =>
      exact Or.inr (Or.inr ⟨by simp only [EVMState.executeTx, EVMState.effect, kind],
        by simp only [EVMState.executeTx, EVMState.effect, kind]⟩)
  | unlock =>
      exact Or.inr (Or.inr ⟨by simp only [EVMState.executeTx, EVMState.effect, kind],
        by simp only [EVMState.executeTx, EVMState.effect, kind]⟩)
  | _ => simp [kind, TxType.priority] at early

/-- A transaction that both have applied is one step of the distance less. -/
theorem Ahead.applied (ahead : Ahead (tx :: rest) s r) (kind : tx.txType ≠ .lock)
    (successful successful' : List Transaction) :
    Ahead rest ⟨s.chain.cleanupAfterExecution tx, s.evm.effect tx, successful⟩
      ⟨r.chain.cleanupAfterExecution tx, r.evm.effect tx, successful'⟩ where
  sorted := ahead.sorted.of_cons
  balance := by
    funext a
    show (r.evm.effect tx).balance a = (s.evm.effect tx).balance a
    rw [balance_effect, balance_effect, ahead.balance]
  code := by
    show (r.evm.effect tx).code = (s.evm.effect tx).code
    rw [code_effect, code_effect, ahead.code]
  storage a slot := by
    show (r.evm.effect tx).storage a slot ≠ (s.evm.effect tx).storage a slot → _
    rw [storage_effect, storage_effect]
    intro differs
    cases value : written tx a slot with
    | some v =>
        rw [value] at differs
        exact absurd rfl differs
    | none =>
        rw [value] at differs
        obtain ⟨tx', member, writes⟩ := ahead.storage a slot differs
        rcases List.mem_cons.1 member with rfl | later
        · exact absurd value writes
        · exact ⟨tx', later, writes⟩
  locks := by
    obtain ⟨early, part, retriable, same⟩ := ahead.locks
    refine ⟨early.filter fun tx' => tx' ≠ tx, fun tx' member => ?_, fun tx' member => ?_, ?_⟩
    · obtain ⟨member, other⟩ := List.mem_filter.1 member
      exact (List.mem_cons.1 (part member)).resolve_left (by simpa using other)
    · exact retriable tx' (List.mem_of_mem_filter member)
    · show (r.chain.cleanupAfterExecution tx).locks =
        List.foldl _ (s.chain.cleanupAfterExecution tx).locks _
      rw [Chain.locks_cleanupAfterExecution, Chain.locks_cleanupAfterExecution, same,
        Locks.foldl_cleanup_comm, Locks.foldl_cleanup_filter (Locks.cleanup_idem _ tx)]
  votes := by
    show (r.chain.cleanupAfterExecution tx).prepares = (s.chain.cleanupAfterExecution tx).prepares
    rw [Chain.prepares_cleanupAfterExecution _ kind, Chain.prepares_cleanupAfterExecution _ kind,
      ahead.votes]

/-- A debit that both have refused was not a part of the distance. -/
theorem Ahead.refused (ahead : Ahead (tx :: rest) s r) (kind : tx.txType = .crossDebit) :
    Ahead rest s r where
  sorted := ahead.sorted.of_cons
  balance := ahead.balance
  code := ahead.code
  storage a slot differs := by
    obtain ⟨tx', member, writes⟩ := ahead.storage a slot differs
    rcases List.mem_cons.1 member with rfl | later
    · rcases writes_of_written writes with other | other <;> simp [kind] at other
    · exact ⟨tx', later, writes⟩
  locks := by
    obtain ⟨early, part, retriable, same⟩ := ahead.locks
    refine ⟨early, fun tx' member => ?_, retriable, same⟩
    refine (List.mem_cons.1 (part member)).resolve_left fun debit => ?_
    have := retriable tx' member
    rw [debit, kind] at this
    exact this
  votes := ahead.votes

/-- **One turn of the second execution.** -/
theorem Ahead.executeOne (ahead : Ahead (tx :: rest) s r) :
    Option.Rel (Ahead rest) (s.executeOne vm tx) (r.executeOne vm tx) := by
  by_cases early : tx.txType.priority < 3
  · have kinds : tx.txType ≠ .lock ∧ tx.txType ≠ .localTx := by
      constructor <;> intro kind <;> simp [kind, TxType.priority] at early
    have free : ∀ c : Chain, c.checkLocalTxLockConflict tx = none := fun c => by
      simp [Chain.checkLocalTxLockConflict, kinds.2]
    rcases executeTx_early vm early ahead.balance with
      ⟨panic, panic'⟩ | ⟨kind, msg, failure, failure'⟩ | ⟨ok, ok'⟩
    · have stops : ∀ t : BlockState, t.evm.executeTx vm tx = .panic → t.executeOne vm tx = none :=
        fun t panic => by
          simp only [BlockState.executeOne, free, kinds.1, panic, Option.isSome_none,
            Bool.false_eq_true, if_false]
      rw [stops s panic, stops r panic']
      exact .none
    · have done : Executed vm s tx s := .skipped (Or.inr ⟨kinds.1, msg, failure⟩)
      have done' : Executed vm r tx r := .skipped (Or.inr ⟨kinds.1, msg, failure'⟩)
      rw [done.executeOne, done'.executeOne]
      exact .some (ahead.refused kind)
    · rw [(Executed.applied kinds.1 (free _) _ ok).executeOne,
        (Executed.applied kinds.1 (free _) _ ok').executeOne]
      exact .some (ahead.applied kinds.1 _ _)
  · have level : Level s r := ahead.level fun tx' member => by
      rcases List.mem_cons.1 member with rfl | later
      · omega
      · have := (List.pairwise_cons.1 ahead.sorted).1 tx' later
        omega
    exact rel_mono (level.executeOne tx) fun _ _ level' => level'.ahead ahead.sorted.of_cons

/-- **The second execution catches up.** -/
theorem Ahead.executeAll (ahead : Ahead rest s r) :
    Option.Rel Level (BlockState.executeAll vm s rest) (BlockState.executeAll vm r rest) := by
  rw [executeAll_eq_run, executeAll_eq_run]
  exact rel_mono (run_rel Ahead (fun _ _ _ _ ahead => ahead.executeOne) rest s r ahead)
    fun _ _ final => final.level (List.forall_mem_nil _)

/-! ## The first execution -/

theorem executeOne_retriable (retriable : Retriable tx.txType)
    (ran : s.executeOne vm tx = some s') :
    s'.evm = s.evm.effect tx ∧ s'.chain.locks = s.chain.locks.cleanup tx ∧
      s'.chain.prepares = s.chain.prepares := by
  have kinds : tx.txType ≠ .lock ∧ tx.txType ≠ .localTx := by
    constructor <;> intro kind <;> simp [kind, Retriable] at retriable
  cases executed_of_executeOne ran with
  | skipped reason =>
      obtain ⟨-, msg, failure⟩ := reason.resolve_left (by
        simp [Chain.checkLocalTxLockConflict, kinds.2])
      unfold EVMState.executeTx at failure
      unfold EVMState.effect Locks.cleanup
      cases kind : tx.txType <;> simp_all [Retriable]
  | granted kind => exact absurd kind kinds.1
  | refused kind => exact absurd kind kinds.1
  | applied _ free evm ok =>
      refine ⟨?_, Chain.locks_cleanupAfterExecution _ _,
        Chain.prepares_cleanupAfterExecution _ kinds.1⟩
      unfold EVMState.executeTx at ok
      unfold EVMState.effect
      cases kind : tx.txType <;> simp_all [Retriable]

theorem balance_effect_retriable (retriable : Retriable tx.txType) (e : EVMState) :
    (e.effect tx).balance = e.balance := by
  funext a
  have still : moveAt a tx = 0 := by
    unfold moveAt
    cases kind : tx.txType <;> simp_all [Retriable]
  rw [balance_effect, still]
  exact BitVec.add_zero _

/-- **What the failed attempt has done in advance.** -/
theorem ahead_of_executeAll {txs : List Transaction}
    (sorted : rest.Pairwise fun tx tx' => tx.txType.priority ≤ tx'.txType.priority)
    (retriable : ∀ tx ∈ txs, Retriable tx.txType) (part : txs ⊆ rest)
    (ran : BlockState.executeAll vm s txs = some r) : Ahead rest s r := by
  suffices general : r.evm.balance = s.evm.balance ∧ r.evm.code = s.evm.code ∧
      (∀ a slot, r.evm.storage a slot ≠ s.evm.storage a slot →
        ∃ tx ∈ txs, written tx a slot ≠ none) ∧
      r.chain.locks = txs.foldl Locks.cleanup s.chain.locks ∧
      r.chain.prepares = s.chain.prepares by
    obtain ⟨balance, code, storage, locks, votes⟩ := general
    refine ⟨sorted, balance, code, fun a slot differs => ?_, ⟨txs, part, retriable, locks⟩, votes⟩
    obtain ⟨tx, member, writes⟩ := storage a slot differs
    exact ⟨tx, part member, writes⟩
  clear part
  induction txs generalizing s with
  | nil =>
      cases ran
      exact ⟨rfl, rfl, fun _ _ differs => absurd rfl differs, rfl, rfl⟩
  | cons tx txs ih =>
      obtain ⟨m, first, rest⟩ := Option.bind_eq_some_iff.1 ran
      obtain ⟨head, retriable⟩ := List.forall_mem_cons.1 retriable
      obtain ⟨evm, locks, votes⟩ := executeOne_retriable head first
      obtain ⟨balance', code', storage', locks', votes'⟩ := ih retriable rest
      refine ⟨?_, ?_, fun a slot differs => ?_, ?_, votes'.trans votes⟩
      · rw [balance', evm, balance_effect_retriable head]
      · rw [code', evm, code_effect]
      · by_cases later : r.evm.storage a slot = m.evm.storage a slot
        · refine ⟨tx, List.mem_cons_self, fun nothing => differs ?_⟩
          rw [later, evm, storage_effect, nothing]
          rfl
        · obtain ⟨tx', member, writes⟩ := storage' a slot later
          exact ⟨tx', List.mem_cons_of_mem _ member, writes⟩
      · rw [locks', locks]
        rfl

end Ahead

/-! ## Any number of failed attempts -/

section Rounds

variable {vm : VM} {c : Chain} {evm : EVMState}

/-- The queue outlives a failed attempt. -/
theorem currentTxs_failed {failed : Produced} (ran : c.produceBlock vm evm none = some failed) :
    failed.chain.currentTxs = c.currentTxs := by
  rw [produceBlock_eq] at ran
  obtain ⟨s, executed, rfl⟩ := Option.map_eq_some_iff.1 ran
  exact congrArg Chain.Steady.currentTxs (steady_executeAll executed)

/-- One failed attempt, transactions that are added afterwards, and a block. -/
theorem aftermath_of_failed {failed : Produced}
    (retriable : ∀ tx ∈ c.currentTxs, Retriable tx.txType)
    (ran : c.produceBlock vm evm none = some failed) (more : List Transaction) (stateRoot : Hash) :
    ((failed.chain.addTxs more).produceBlock vm failed.evm (some stateRoot)).map
        Produced.aftermath =
      ((c.addTxs more).produceBlock vm evm (some stateRoot)).map Produced.aftermath := by
  have queue := currentTxs_failed ran
  rw [produceBlock_eq] at ran
  obtain ⟨s, executed, rfl⟩ := Option.map_eq_some_iff.1 ran
  change s.chain.currentTxs = c.currentTxs at queue
  have sorted := byKey_perm (fun tx : Transaction => tx.txType.priority)
  have ahead : Ahead (Chain.sortTransactionsByPriority (c.currentTxs ++ more)) ⟨c, evm, []⟩ s := by
    refine ahead_of_executeAll (byKey_sorted _ _) (fun tx member => ?_) (fun tx member => ?_) executed
    · exact retriable tx ((sorted _).mem_iff.1 member)
    · exact (sorted _).mem_iff.2 (List.mem_append_left _ ((sorted _).mem_iff.1 member))
  have ahead' : Ahead (Chain.sortTransactionsByPriority (c.currentTxs ++ more))
      ⟨c.withQueue (c.currentTxs ++ more), evm, []⟩
      ⟨s.chain.withQueue (c.currentTxs ++ more), s.evm, []⟩ :=
    ⟨ahead.sorted, ahead.balance, ahead.code, ahead.storage, ahead.locks, ahead.votes⟩
  show ((s.chain.withQueue (s.chain.currentTxs ++ more)).produceBlock vm s.evm _).map _ =
    ((c.withQueue (c.currentTxs ++ more)).produceBlock vm evm _).map _
  rw [queue, produceBlock_eq, produceBlock_eq]
  exact aftermath_of_rel ahead'.executeAll stateRoot

/-- **All rounds**, by taking the failed attempts out one after the other, the last one first. -/
theorem appliesOnce_of_retriable (rounds : List (List Transaction)) (more : List Transaction)
    (stateRoot : Hash) (retriable : ∀ tx ∈ c.currentTxs ++ rounds.flatten, Retriable tx.txType) :
    AppliesOnce vm c evm rounds more stateRoot := by
  induction rounds generalizing c evm with
  | nil =>
      intro c' evm' ran
      cases ran
      rfl
  | cons added rounds ih =>
      intro c' evm' ran
      obtain ⟨failed, attempt, later⟩ := Option.bind_eq_some_iff.1 ran
      have queue : failed.chain.currentTxs = c.currentTxs ++ added := currentTxs_failed attempt
      rw [List.flatten_cons, ← List.append_assoc, ← queue] at retriable
      refine (ih retriable c' evm' later).trans ?_
      rw [aftermath_of_failed (fun tx member => ?_) attempt]
      · simp only [Chain.addTxs, List.flatten_cons, List.append_assoc]
      · refine retriable tx (List.mem_append_left _ ?_)
        rwa [← currentTxs_failed attempt] at member

end Rounds

/-! ## Transactions that do nothing -/

def blank (kind : TxType) : Transaction := { txType := kind }

section Blank

variable {vm : VM} {s r : BlockState}

theorem executeTx_blank (vm : VM) (e : EVMState) (kind : TxType) :
    e.executeTx vm (blank kind) = .ok e ∨ ∃ msg, e.executeTx vm (blank kind) = .error msg := by
  have zero : mustFromBig (toBigInt none) = some 0 := rfl
  have debit : e.subBalance 0 0 = e := by
    refine EVMState.ext ?_ rfl rfl
    funext a
    simp [EVMState.subBalance]
  have credit : e.addBalance 0 0 = e := by
    refine EVMState.ext ?_ rfl rfl
    funext a
    simp [EVMState.addBalance]
  cases kind with
  | localTx =>
      refine Or.inl ?_
      have affordable : e.canTransfer 0 0 = true := decide_eq_true (by bv_omega)
      simp only [EVMState.executeTx, EVMState.executeLocalTx, blank, zero, ne_eq, not_true_eq_false,
        if_false, affordable, if_true, EVMState.transfer, debit, credit]
  | crossDebit =>
      refine Or.inl ?_
      have covered : ¬e.balance 0 < 0 := by bv_omega
      simp only [EVMState.executeTx, EVMState.debit, blank, zero, if_neg covered, debit]
  | crossCredit =>
      exact Or.inl (by simp only [EVMState.executeTx, EVMState.credit, blank, zero, credit])
  | prepareDebit => exact Or.inr ⟨_, rfl⟩
  | prepareCredit => exact Or.inr ⟨_, rfl⟩
  | prepareWriteSet => exact Or.inr ⟨_, rfl⟩
  | _ => exact Or.inl rfl

theorem executeOne_blank (vm : VM) (s : BlockState) (kind : TxType) :
    ∃ s', s.executeOne vm (blank kind) = some s' ∧ Level s s' := by
  have unnamed : (blank kind).crossShardTxID = "" := rfl
  have same := s.chain.cleanupAfterExecution_unnamed unnamed
  by_cases lock : kind = .lock
  · have lockFree : Locks.LockFree (blank kind) := ⟨le_refl 0, rfl⟩
    have grants : s.chain.locks.Grants s.evm (blank kind) := Locks.grants_of_lockFree lockFree
    have granted := Chain.executeLock_of_grants grants
    have kind' : (blank kind).txType = .lock := lock
    rcases s.chain.executeLock_cases s.evm kind' with
      ⟨chain, result, grant⟩ | ⟨_, result, -⟩
    · refine ⟨_, (Executed.granted lock chain grant result).executeOne, ⟨rfl, ?_⟩, ?_⟩
      · show chain.locks = s.chain.locks
        rw [Chain.locks_granted grant, Locks.grant_of_lockFree lockFree]
      · show chain.prepares = s.chain.prepares
        rw [grant.chain, if_pos unnamed]
    · rw [result] at granted
      cases granted
  · by_cases conflict : (s.chain.checkLocalTxLockConflict (blank kind)).isSome
    · exact ⟨s, (Executed.skipped (Or.inl conflict)).executeOne, ⟨rfl, rfl⟩, rfl⟩
    · rcases executeTx_blank vm s.evm kind with ok | ⟨msg, failure⟩
      · have free := Option.not_isSome_iff_eq_none.1 conflict
        refine ⟨_, (Executed.applied lock free _ ok).executeOne, ⟨rfl, ?_⟩, ?_⟩
        · exact congrArg Chain.locks same
        · exact congrArg Chain.prepares same
      · exact ⟨s, (Executed.skipped (Or.inr ⟨lock, msg, failure⟩)).executeOne, ⟨rfl, rfl⟩, rfl⟩

/-- The transactions that are not blank. -/
def marked (txs : List Transaction) : List Transaction := txs.filter fun tx => tx ≠ blank tx.txType

theorem marked_blanks (kinds : List TxType) : marked (kinds.map blank) = [] := by
  refine List.filter_eq_nil_iff.2 fun tx member => ?_
  obtain ⟨kind, -, rfl⟩ := List.mem_map.1 member
  simp [blank]

theorem Level.executeAll_marked (level : Level s r) (txs : List Transaction) :
    Option.Rel Level (BlockState.executeAll vm s (marked txs)) (BlockState.executeAll vm r txs) := by
  induction txs generalizing s r with
  | nil => exact .some level
  | cons tx txs ih =>
      by_cases plain : tx = blank tx.txType
      · obtain ⟨r', ran, level'⟩ := executeOne_blank vm r tx.txType
        rw [← plain] at ran
        rw [marked, List.filter_cons_of_neg (by simpa using plain), BlockState.executeAll, ran,
          Option.bind_some]
        exact ih (level.trans level')
      · rw [marked, List.filter_cons_of_pos (by simpa using plain), BlockState.executeAll,
          BlockState.executeAll]
        exact rel_bind (level.executeOne tx) fun _ _ level' => ih level'

/-- The second chain has blank transactions in its queue besides those of the first. -/
structure Padded (c c' : Chain) (evm evm' : EVMState) : Prop where
  level : Level ⟨c, evm, []⟩ ⟨c', evm', []⟩
  queue : marked c'.currentTxs = c.currentTxs

variable {c c' : Chain} {evm evm' : EVMState}

theorem Padded.executeAll (padded : Padded c c' evm evm') (vm : VM) :
    Option.Rel Level
      (BlockState.executeAll vm ⟨c, evm, []⟩ (Chain.sortTransactionsByPriority c.currentTxs))
      (BlockState.executeAll vm ⟨c', evm', []⟩ (Chain.sortTransactionsByPriority c'.currentTxs)) := by
  have sorted : marked (Chain.sortTransactionsByPriority c'.currentTxs) =
      Chain.sortTransactionsByPriority c.currentTxs := by
    rw [← padded.queue]
    exact byKey_filter _ _ _
  rw [← sorted]
  exact padded.level.executeAll_marked _

theorem Padded.aftermath (padded : Padded c c' evm evm') (stateRoot : Hash) :
    (c'.produceBlock vm evm' (some stateRoot)).map Produced.aftermath =
      (c.produceBlock vm evm (some stateRoot)).map Produced.aftermath := by
  rw [produceBlock_eq, produceBlock_eq]
  exact aftermath_of_rel (padded.executeAll vm) stateRoot

theorem Padded.failed (padded : Padded c c' evm evm') {failed : Produced}
    (ran : c.produceBlock vm evm none = some failed) :
    ∃ failed', c'.produceBlock vm evm' none = some failed' ∧
      Padded failed.chain failed'.chain failed.evm failed'.evm := by
  have queue := currentTxs_failed ran
  rw [produceBlock_eq] at ran
  obtain ⟨s, executed, rfl⟩ := Option.map_eq_some_iff.1 ran
  have related := padded.executeAll vm
  rw [executed] at related
  obtain ⟨s', executed', level⟩ := exists_of_rel_some related
  have ran' : c'.produceBlock vm evm' none = some (s'.produced none) := by
    rw [produceBlock_eq, executed', Option.map_some]
  refine ⟨_, ran', ⟨⟨level.evm, level.locks⟩, level.votes⟩, ?_⟩
  rw [currentTxs_failed ran', queue, padded.queue]

theorem Padded.addTxs (padded : Padded c c' evm evm') {more : List Transaction}
    (odd : marked more = more) : Padded (c.addTxs more) (c'.addTxs more) evm evm' where
  level := ⟨⟨padded.level.evm, padded.level.locks⟩, padded.level.votes⟩
  queue := by
    show marked (c'.currentTxs ++ more) = c.currentTxs ++ more
    rw [marked, List.filter_append, ← marked, ← marked, padded.queue, odd]

/-- **Blank transactions make no difference** to whether the others are applied once. -/
theorem Padded.appliesOnce (padded : Padded c c' evm evm') {more : List Transaction}
    (odd : marked more = more) {stateRoot : Hash}
    (once : AppliesOnce vm c' evm' [[]] more stateRoot) :
    AppliesOnce vm c evm [[]] more stateRoot := by
  have start : ∀ c : Chain, c.addTxs [] = c := fun c => by
    rw [Chain.addTxs, List.append_nil]
  intro c₁ evm₁ ran
  obtain ⟨failed, attempt, ended⟩ := Option.bind_eq_some_iff.1 ran
  cases ended
  rw [start] at attempt
  obtain ⟨failed', attempt', padded'⟩ := padded.failed attempt
  have same := once failed'.chain failed'.evm (by
    rw [failedRounds, start, attempt']
    rfl)
  rw [(padded'.addTxs odd).aftermath] at same
  rw [same]
  exact (padded.addTxs odd).aftermath stateRoot

end Blank

/-! ## One transaction of each other type -/

namespace CommitFailurePole

open BlockReplayPole

/-- A chain on which `tx-1` holds a slot of the vault. -/
def held : Chain := { Chain.newChain 0 with
  slotLocks := (∅ : FMap Address (FMap Hash TxID)).set vault ((∅ : FMap Hash TxID).set 7 "tx-1") }

/-- A transaction of `tx-1` that moves, or locks, five coins. -/
def sample (kind : TxType) : Transaction where
  txType := kind
  crossShardTxID := "tx-1"
  fromAddr := alice
  toAddr := bob
  value := some 5

/-- A later `Lock` on the slot that `tx-1` holds. -/
def claimant : Transaction where
  txType := .lock
  crossShardTxID := "tx-2"
  rwSet := [⟨vault, ⟨0⟩, [⟨7, []⟩], []⟩]

/-- What is read off to tell two outcomes apart. -/
def reading (a : Aftermath) : U256 × U256 × List LockedEntry × Option (Option Bool) :=
  (a.evm.balance alice, a.evm.balance bob, a.locks.entries alice, a.votes.map fun v => v.get "tx-2")

theorem not_appliesOnce_sample {kind : TxType} (harmful : ¬Retriable kind) :
    ¬AppliesOnce vm (held.withQueue [sample kind]) funded [[]] [claimant] 0 := by
  intro once
  obtain ⟨failed, ran⟩ : ∃ failed,
      failedRounds vm (held.withQueue [sample kind]) funded [[]] = some failed := by
    refine Option.isSome_iff_exists.1 ?_
    cases kind with
    | localTx => decide +kernel
    | crossDebit => decide +kernel
    | crossCredit => decide +kernel
    | crossAbort => decide +kernel
    | lock => decide +kernel
    | _ => exact absurd trivial harmful
  have same := congrArg (Option.map reading) (once failed.1 failed.2 ran)
  have retried : ((failedRounds vm (held.withQueue [sample kind]) funded [[]]).bind fun failed =>
      (((failed.1.addTxs [claimant]).produceBlock vm failed.2 (some 0)).map
        Produced.aftermath).map reading) =
      (((held.withQueue [sample kind]).addTxs [claimant]).produceBlock vm funded (some 0)).map
        (reading ∘ Produced.aftermath) := by
    rw [ran, Option.bind_some, same, Option.map_map]
    rfl
  revert retried
  cases kind with
  | localTx => decide +kernel
  | crossDebit => decide +kernel
  | crossCredit => decide +kernel
  | crossAbort => decide +kernel
  | lock => decide +kernel
  | _ => exact absurd trivial harmful

end CommitFailurePole

open BlockReplayPole CommitFailurePole in
/-- **Failed commits are harmless for exactly these types.**  Let the queue at the last failed
attempt have transactions of the given types.  Every later block applies them once, from every
chain and state, for every machine and whatever is queued after the failure, if and only if no
local transaction, debit, credit, abort or `Lock` is among them. -/
theorem applied_once_iff (kinds : List TxType) :
    (∀ (vm : VM) (c : Chain) (evm : EVMState) (rounds : List (List Transaction))
        (more : List Transaction) (stateRoot : Hash),
        (c.currentTxs ++ rounds.flatten).map Transaction.txType = kinds →
        AppliesOnce vm c evm rounds more stateRoot) ↔
      ∀ kind ∈ kinds, Retriable kind := by
  constructor
  · intro all kind member
    by_contra harmful
    obtain ⟨before, after, rfl⟩ := List.append_of_mem member
    have padded : Padded (held.withQueue [sample kind])
        (held.withQueue (before.map blank ++ sample kind :: after.map blank)) funded funded := by
      refine ⟨⟨⟨rfl, rfl⟩, rfl⟩, ?_⟩
      show marked (before.map blank ++ sample kind :: after.map blank) = [sample kind]
      have odd : sample kind ≠ blank (sample kind).txType := by simp [sample, blank]
      rw [marked, List.filter_append, List.filter_cons_of_pos (by simpa using odd), ← marked,
        ← marked, marked_blanks, marked_blanks]
      rfl
    refine not_appliesOnce_sample harmful (padded.appliesOnce (by decide) ?_)
    refine all vm _ funded [[]] [claimant] 0 ?_
    have types : ∀ kinds : List TxType, (kinds.map blank).map Transaction.txType = kinds := by
      intro kinds
      rw [List.map_map]
      exact List.map_id _
    show (before.map blank ++ sample kind :: after.map blank ++ []).map Transaction.txType = _
    rw [List.append_nil, List.map_append, List.map_cons, types, types]
    rfl
  · intro retriable vm c evm rounds more stateRoot types
    refine appliesOnce_of_retriable rounds more stateRoot fun tx member => retriable _ ?_
    rw [← types]
    exact List.mem_map_of_mem member

open BlockReplayPole CommitFailurePole in
/-- A credit whose first commit fails is paid twice. -/
theorem failed_commit_credits_twice :
    ∃ failed retried direct,
      (held.withQueue [sample .crossCredit]).produceBlock vm funded none = some failed ∧
        failed.block.isNone ∧
        failed.chain.produceBlock vm failed.evm (some 0) = some retried ∧
        (held.withQueue [sample .crossCredit]).produceBlock vm funded (some 0) = some direct ∧
        retried.evm.balance bob = 10 ∧ direct.evm.balance bob = 5 :=
  ⟨_, _, _, rfl, rfl, rfl, rfl, by decide +kernel, by decide +kernel⟩

end CrossShard.Shard
