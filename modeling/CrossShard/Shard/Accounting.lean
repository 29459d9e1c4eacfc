/-
# Shard.Accounting -- the sum of a shard's balances

Debits take from the sum of all balances of a shard, credits add to it, and nothing else that is
executed changes it, if calls do not.

* `total_of_run`: the sum is the initial one plus what the blocks of the shard move.
* `Booked`: what a shard keeps for a transaction from its YES until it hears the decision.
* `paid_of_commit`: a commit that a shard hears after its YES queues the debit and the credit.
-/
import Mathlib.Algebra.BigOperators.Ring.Finset
import Mathlib.Data.BitVec
import Mathlib.Data.FinEnum
import CrossShard.Shard.Bystander
import CrossShard.Shard.FundLocks
import CrossShard.Shard.Inclusion

namespace CrossShard.Shard

set_option autoImplicit false

open CrossShard.Library CrossShard.Protocol
open Chain (debitTx creditTx crossTx lockTx)

/-! ## The sum of the balances -/

/-- The sum of all balances, modulo `2 ^ 256` like each of them. -/
def EVMState.total (e : EVMState) : U256 := ∑ a, e.balance a

theorem EVMState.total_addBalance (e : EVMState) (a : Address) (amount : U256) :
    (e.addBalance a amount).total = e.total + amount := by
  have others : ∑ x ∈ Finset.univ \ {a}, (e.addBalance a amount).balance x =
      ∑ x ∈ Finset.univ \ {a}, e.balance x :=
    Finset.sum_congr rfl fun x member => by
      have other : x ≠ a := by simpa using member
      simp [EVMState.addBalance, other]
  have here : (e.addBalance a amount).balance a = e.balance a + amount := by
    simp [EVMState.addBalance]
  rw [EVMState.total, EVMState.total,
    ← Finset.sum_sdiff (Finset.subset_univ ({a} : Finset Address)), others,
    ← Finset.sum_sdiff (Finset.subset_univ ({a} : Finset Address)), Finset.sum_singleton,
    Finset.sum_singleton, here, add_assoc]

theorem EVMState.subBalance_eq (e : EVMState) (a : Address) (amount : U256) :
    e.subBalance a amount = e.addBalance a (-amount) := by
  unfold EVMState.subBalance EVMState.addBalance
  rw [sub_eq_add_neg]

theorem EVMState.total_transfer (e : EVMState) (sender recipient : Address) (amount : U256) :
    (e.transfer sender recipient amount).total = e.total := by
  rw [EVMState.transfer, EVMState.total_addBalance, EVMState.subBalance_eq,
    EVMState.total_addBalance, neg_add_cancel_right]

/-- Calls move balances but keep their sum. -/
def Conserving (vm : VM) : Prop :=
  ∀ e caller callee data gas value e', vm.call e caller callee data gas value = .ok e' →
    e'.total = e.total

/-- The amount of a transfer as the shard reads it. -/
def amountOf (value : Option Int) : U256 := BitVec.ofInt 256 (toBigInt value)

/-- What a transaction adds to the sum when it is executed. -/
def moves (tx : Transaction) : U256 :=
  match tx.txType with
  | .crossDebit => -amountOf tx.value
  | .crossCredit => amountOf tx.value
  | _ => 0

theorem mustFromBig_eq {value : Option Int} {amount : U256}
    (reads : mustFromBig (toBigInt value) = some amount) : amount = amountOf value := by
  unfold mustFromBig at reads
  split at reads
  · exact (Option.some.inj reads).symm
  · cases reads

theorem total_of_balance {e e' : EVMState} (same : e'.balance = e.balance) : e'.total = e.total := by
  rw [EVMState.total, EVMState.total, same]

theorem total_executeLocalTx {vm : VM} (conserving : Conserving vm) {e e' : EVMState}
    {tx : Transaction} (ran : e.executeLocalTx vm tx = .ok e') : e'.total = e.total := by
  unfold EVMState.executeLocalTx at ran
  split at ran
  · cases ran
  · dsimp only at ran
    split at ran
    · split at ran
      · rename_i called
        cases ran
        exact conserving _ _ _ _ _ _ _ called
      · cases ran
    · split at ran
      · cases ran
        exact e.total_transfer ..
      · cases ran

theorem total_debit {e e' : EVMState} {a : Address} {value : Option Int}
    (ran : e.debit a (toBigInt value) = .ok e') : e'.total = e.total + -amountOf value := by
  unfold EVMState.debit at ran
  split at ran
  · cases ran
  · rename_i amount reads
    split at ran
    · cases ran
    · cases ran
      rw [EVMState.subBalance_eq, EVMState.total_addBalance, mustFromBig_eq reads]

theorem total_credit {e e' : EVMState} {a : Address} {value : Option Int}
    (ran : e.credit a (toBigInt value) = .ok e') : e'.total = e.total + amountOf value := by
  unfold EVMState.credit at ran
  split at ran
  · cases ran
  · rename_i amount reads
    cases ran
    rw [EVMState.total_addBalance, mustFromBig_eq reads]

/-- **One transaction.**  Executing it moves the sum by what it moves. -/
theorem total_executeTx {vm : VM} (conserving : Conserving vm) {e e' : EVMState} {tx : Transaction}
    (ran : e.executeTx vm tx = .ok e') : e'.total = e.total + moves tx := by
  cases kind : tx.txType with
  | localTx =>
      simp only [EVMState.executeTx, kind] at ran
      simpa [moves, kind] using total_executeLocalTx conserving ran
  | crossDebit =>
      simp only [EVMState.executeTx, kind] at ran
      simpa only [moves, kind] using total_debit ran
  | crossCredit =>
      simp only [EVMState.executeTx, kind] at ran
      simpa only [moves, kind] using total_credit ran
  | crossWriteSet =>
      simp only [EVMState.executeTx, kind] at ran
      cases ran
      simpa [moves, kind] using total_of_balance (e.applyWriteSet_frame tx.rwSet).1
  | finalize =>
      simp only [EVMState.executeTx, kind] at ran
      cases ran
      simpa [moves, kind] using total_of_balance (e.applyWriteSet_frame tx.rwSet).1
  | crossAbort | lock | unlock | simError =>
      simp only [EVMState.executeTx, kind] at ran
      cases ran
      simp [moves, kind]
  | _ =>
      simp only [EVMState.executeTx, kind] at ran
      cases ran

/-! ## Runs -/

section Runs

variable {k : Int} {vm : VM} {evm : EVMState} {es : List Event} {n n' : Node} {e : Event}

/-- The sum of the balances is the initial one plus what the included transactions move. -/
def Accounted (evm : EVMState) (n : Node) : Prop :=
  n.evm.total = evm.total + (n.included.map moves).sum

theorem Accounted.step (accounted : Accounted evm n) (conserving : Conserving vm)
    (taken : Taken vm n e n') (commits : e ≠ .commitError) : Accounted evm n' := by
  have extend : ∀ {c : Chain} {state : EVMState} {tx : Transaction} {rest successful},
      n.work = some ⟨tx :: rest, successful⟩ → c.blocks = n.chain.blocks →
      state.total = n.evm.total + moves tx →
      Accounted evm ⟨c, state, some ⟨rest, successful ++ [tx]⟩⟩ := by
    intro c state tx rest successful busy blocks moved
    rw [Accounted, included_append busy blocks, moved, accounted, List.map_append, List.sum_append]
    simp [add_assoc]
  have keep : n'.evm = n.evm → n'.included = n.included → Accounted evm n' := by
    intro state same
    rw [Accounted, state, same]
    exact accounted
  have included := taken.included_cases commits
  cases taken with
  | granted tx rest successful busy kind chain lock =>
      exact extend busy (congrArg Chain.Steady.blocks lock.steady) (by simp [moves, kind])
  | applied tx rest successful busy kind free state ran =>
      exact extend busy (congrArg Chain.Steady.blocks (n.chain.steady_cleanupAfterExecution tx))
        (total_executeTx conserving ran)
  | skipped tx rest successful busy reason =>
      exact keep rfl (by simp [Node.included, busy])
  | refused tx rest successful busy kind chain lock result =>
      have blocks : chain.blocks = n.chain.blocks := congrArg Chain.Steady.blocks lock.steady
      exact keep rfl (by simp [Node.included, busy, blocks])
  | _ => exact keep rfl (included.resolve_right (by rintro ⟨_, ⟨⟩, _⟩))

theorem total_of_run (conserving : Conserving vm) (commits : Event.commitError ∉ es)
    (reached : run (step vm) (Node.start k evm) es = some n) : Accounted evm n :=
  run_preserves (P := fun e => e ≠ .commitError) (Accounted evm)
    (fun _ _ _ accounted clean stepped => accounted.step conserving (taken_of_step stepped) clean)
    (by simp [Accounted, Node.start, Node.included, Chain.newChain])
    (fun _ member => ne_of_mem_of_not_mem member commits) reached

/-- A credit that was executed is included: it never fails. -/
theorem credit_included (commits : Event.commitError ∉ es)
    (reached : run (step vm) (Node.start k evm) es = some n) {tx : Transaction}
    (done : tx ∈ executed es) (kind : tx.txType = .crossCredit) : tx ∈ n.included := by
  obtain ⟨es₁, es₂, m, m', rfl, -, taken, rest⟩ := executed_split reached done
  have clean : Event.commitError ∉ es₂ :=
    fun member => commits (List.mem_append_right _ (List.mem_cons_of_mem _ member))
  refine included_mono clean rest ?_
  cases taken with
  | granted _ remaining successful busy locks chain lock => simp [kind] at locks
  | refused _ remaining successful busy locks chain lock result => simp [kind] at locks
  | applied _ remaining successful busy other free state ran => simp [Node.included]
  | skipped _ remaining successful busy reason =>
      rcases reason with conflict | ⟨-, msg, failure⟩
      · simp [Chain.checkLocalTxLockConflict, kind] at conflict
      · simp only [EVMState.executeTx, kind, EVMState.credit] at failure
        split at failure <;> cases failure

/-- A condition on the amount that is read, if any.  (The search for instances would try all
words.) -/
def decidableOfRead (read : Option U256) (p : U256 → Prop) [DecidablePred p] :
    Decidable (∀ amount, read = some amount → p amount) :=
  match read with
  | none => isTrue fun _ reads => by cases reads
  | some word => decidable_of_iff (p word) (by simp)

instance (n : Node) (e : Event) : Decidable (LocalCovered n e) :=
  match e with
  | .execute tx =>
      have := decidableOfRead (mustFromBig (toBigInt tx.value)) fun amount =>
        n.evm.canTransfer tx.fromAddr amount = true → n.evm.canDebit tx.fromAddr amount.toNat
          (n.chain.getLockedAmountForAddress tx.fromAddr) = true
      inferInstanceAs (Decidable (_ → _ → _ → ∀ amount, _ = some amount → _))
  | .decision .. | .order _ | .advance _ | .submit _ | .beginBlock | .commitBlock _
  | .commitError => isTrue trivial

instance (n : Node) (e : Event) : Decidable (NoOverflow n e) :=
  match e with
  | .execute tx => decidableOfRead (mustFromBig (toBigInt tx.value)) _
  | .decision .. | .order _ | .advance _ | .submit _ | .beginBlock | .commitBlock _
  | .commitError => isTrue trivial

/-- **Where local transfers keep off reserved funds, debits do not fail.** -/
theorem debit_included (ok : Disciplined es) (named : ∀ t ∈ ordered es, t.id ≠ "")
    (bounded : Along (step transferVM) NoOverflow (Node.start k evm) es)
    (checked : Along (step transferVM) LocalCovered (Node.start k evm) es)
    (reached : run (step transferVM) (Node.start k evm) es = some n) {tx : Transaction}
    (done : tx ∈ executed es) (kind : tx.txType = .crossDebit) : tx ∈ n.included := by
  obtain ⟨es₁, es₂, m, m', rfl, early, taken, rest⟩ := executed_split reached done
  have clean : Event.commitError ∉ es₂ :=
    fun member => ok.commits (List.mem_append_right _ (List.mem_cons_of_mem _ member))
  have reserving : Reserving m := by
    refine run_invariant
      (fun es => Disciplined es ∧ (∀ t ∈ ordered es, t.id ≠ "") ∧
        Along (step transferVM) NoOverflow (Node.start k evm) es ∧
        Along (step transferVM) LocalCovered (Node.start k evm) es)
      (fun es e all => ⟨all.1.of_append, fun t member => all.2.1 t (mem_ordered_append member [e]),
        all.2.2.1.of_append, all.2.2.2.of_append⟩)
      (fun _ n => Reserving n) (reserving_start k evm) ?_ es₁ m
      ⟨ok.of_append, fun t member => named t (mem_ordered_append member _), bounded.of_append,
        checked.of_append⟩ early
    intro es n e n' all before reserving stepped
    exact reserving.step (traced_of_run all.1.of_append before) all.1
      (fun t member => all.2.1 t (mem_ordered_append member [e])) (taken_of_step stepped)
      (all.2.2.1.last before) (all.2.2.2.last before)
  have traced := traced_of_run ok.of_append early
  refine included_mono clean rest ?_
  obtain ⟨state, paid⟩ := reserving.debit_ok traced taken.waits kind
  cases taken with
  | granted _ remaining successful busy locks chain lock => simp [kind] at locks
  | refused _ remaining successful busy locks chain lock result => simp [kind] at locks
  | applied _ remaining successful busy other free state ran => simp [Node.included]
  | skipped _ remaining successful busy reason =>
      rcases reason with conflict | ⟨-, msg, failure⟩
      · simp [Chain.checkLocalTxLockConflict, kind] at conflict
      · simp [EVMState.executeTx, kind, paid] at failure

theorem conserving_transferVM : Conserving transferVM := by
  intro e caller callee data gas value e' called
  simp only [transferVM] at called
  split at called
  · cases called
    exact e.total_transfer ..
  · cases called

/-! ## What a shard keeps for a transaction -/

/-- The reservation and the credit of `t`, as far as they concern this shard. -/
structure Booked (k : Int) (c : Chain) (t : CrossShardTx) : Prop where
  funds : t.fromShard = k → 0 < toBigInt t.value →
    c.locked.get t.id = some ⟨t.fromAddr, toBigInt t.value⟩
  credit : shardOf t.toAddr = k → 0 < toBigInt t.value →
    c.pendingCredits.get t.id = some [⟨t.toAddr, toBigInt t.value⟩]

/-- The credit is noted while the `Lock` waits, and everything is booked after a YES. -/
structure Bookkeeping (k : Int) (es : List Event) (n : Node) : Prop where
  noted : ∀ t ∈ ordered es, verdict es t.id = none → lockTx k t ∈ n.outstanding →
    shardOf t.toAddr = k → 0 < toBigInt t.value →
    n.chain.pendingCredits.get t.id = some [⟨t.toAddr, toBigInt t.value⟩]
  voted : ∀ x, n.chain.prepares.get x = some true ∨ n.VotedYes x →
    ∃ t ∈ ordered es, t.id = x ∧ lockTx k t ∈ executed es ∧
      (verdict es x = none → Booked k n.chain t)

theorem Booked.of_view {c c' : Chain} {t : CrossShardTx} (booked : Booked k c t)
    (same : c'.view t.id = c.view t.id) : Booked k c' t where
  funds source positive := (congrArg Chain.TxView.funds same).trans (booked.funds source positive)
  credit home positive := (congrArg Chain.TxView.credits same).trans (booked.credit home positive)

/-- What waits about an undecided transaction is its `Lock`. -/
theorem Traced.about_undecided (traced : Traced k es n) {tx : Transaction}
    (waits : tx ∈ n.outstanding) {x : TxID} (undecided : verdict es x = none) :
    tx.txType = .localTx ∨ tx.crossShardTxID ≠ x ∨ LockOf x tx := by
  by_cases own : tx.crossShardTxID = x
  · have decided : ∀ {commit}, verdict es tx.crossShardTxID ≠ some commit := by
      intro commit found
      rw [own, undecided] at found
      cases found
    cases traced.queued tx (mem_ledger_of_outstanding waits) with
    | submission _ kind unnamed => exact .inl kind
    | lock t known involved => exact .inr (.inr ⟨rfl, own⟩)
    | effect t known committed _ caused => exact absurd (caused.id_eq ▸ committed) decided
    | unlock y committed decided' => exact absurd decided' decided
    | abort y aborted => exact absurd aborted decided
  · exact .inr (.inl own)

/-- An event keeps the records of an ID that it is not about. -/
theorem Taken.view_of_other (taken : Taken vm n e n') {x : TxID}
    (executes : ∀ tx, e = .execute tx → tx.txType = .localTx ∨ tx.crossShardTxID ≠ x)
    (orders : ∀ t, e = .order t → t.id ≠ x) : n'.chain.view x = n.chain.view x := by
  cases taken with
  | ordered t idle involved => exact Chain.view_noteOrder_of_ne (orders t rfl).symm
  | granted tx rest successful busy kind chain lock =>
      refine lock.view_of_ne (Ne.symm ((executes tx rfl).resolve_left ?_))
      simp [kind]
  | refused tx rest successful busy kind chain lock result =>
      refine lock.others x (Ne.symm ((executes tx rfl).resolve_left ?_))
      simp [kind]
  | applied tx rest successful busy kind free state ran =>
      rcases executes tx rfl with unnamed | other
      · show (n.chain.cleanupAfterExecution tx).view x = _
        rw [cleanupAfterExecution_of_local _ unnamed]
      · exact Chain.view_cleanupAfterExecution_of_ne other.symm
  | _ => rfl

theorem Disciplined.fresh {t' : CrossShardTx} (ok : Disciplined (es ++ [.order t']))
    {t : CrossShardTx} (known : t ∈ ordered es) : t.id ≠ t'.id := by
  intro same
  have all := ok.distinct
  rw [ordered_append, List.map_append] at all
  refine (List.nodup_append.1 all).2.2 t.id (List.mem_map_of_mem known) t'.id ?_ same
  simp [ordered]

/-- The records of an undecided transaction change only when it is ordered or locked. -/
theorem Traced.view_of_undecided (traced : Traced k es n) (ok : Disciplined (es ++ [e]))
    (taken : Taken vm n e n') {t : CrossShardTx} (known : t ∈ ordered es)
    (undecided : verdict es t.id = none) (unlocked : e ≠ .execute (lockTx k t)) :
    n'.chain.view t.id = n.chain.view t.id := by
  refine taken.view_of_other ?_ ?_
  · rintro tx rfl
    have waits := taken.waits
    rcases traced.about_undecided waits undecided with unnamed | other | ⟨kind, own⟩
    · exact .inl unnamed
    · exact .inr other
    · obtain ⟨t', known', -, rfl⟩ := traced.lock_of_kind (mem_ledger_of_outstanding waits) kind
      rw [ok.of_append.unique known' known own] at unlocked
      exact absurd rfl unlocked
  · rintro t' rfl same
    exact ok.fresh known same.symm

/-- A `Lock` is queued by its order. -/
theorem Taken.ordered_of_added (taken : Taken vm n e n') {t : CrossShardTx}
    (new : lockTx k t ∈ added n e) :
    ∃ t', e = .order t' ∧ t'.id = t.id ∧
      n'.chain.pendingCredits = (n.chain.noteOrder t').pendingCredits := by
  have kind : (lockTx k t).txType = .lock := rfl
  cases taken with
  | decided x committed idle fresh =>
      exfalso
      simp only [added, fresh, Bool.false_eq_true, if_false, Chain.decisionTxs, List.mem_append,
        List.mem_singleton] at new
      rcases new with effect | unlock
      · cases committed with
        | true =>
            rw [if_pos rfl, ← effects_commitTxs] at effect
            have first := (List.mem_filter.1 effect).2
            simp [kind, TxType.priority] at first
        | false =>
            simp only [Bool.false_eq_true, if_false, Chain.abortTxs] at effect
            split at effect
            · rw [List.mem_singleton.1 effect] at kind
              cases kind
            · cases effect
      · rw [unlock] at kind
        cases kind
  | ordered t' idle involved =>
      simp only [added, involved, if_true, List.mem_singleton] at new
      exact ⟨t', rfl, (congrArg Transaction.crossShardTxID new).symm, rfl⟩
  | submitted tx idle isLocal unnamed =>
      rw [List.mem_singleton.1 new, isLocal] at kind
      cases kind
  | stale x committed idle processed => simp [added, processed] at new
  | passed t' idle foreign => simp [added, foreign] at new
  | _ => cases new

theorem Bookkeeping.noted_step (kept : Bookkeeping k es n) (traced : Traced k es n)
    (traced' : Traced k (es ++ [e]) n') (ok : Disciplined (es ++ [e])) (taken : Taken vm n e n')
    {t : CrossShardTx} (known : t ∈ ordered (es ++ [e]))
    (undecided : verdict (es ++ [e]) t.id = none) (waits : lockTx k t ∈ n'.outstanding)
    (home : shardOf t.toAddr = k) (positive : 0 < toBigInt t.value) :
    n'.chain.pendingCredits.get t.id = some [⟨t.toAddr, toBigInt t.value⟩] := by
  have commits : e ≠ .commitError := fun same => ok.commits (by simp [same])
  have undecided' := verdict_of_append_none undecided
  rcases taken.mem_outstanding commits waits with old | new
  · obtain ⟨t₀, known₀, -, same⟩ := traced.lock_of_kind (mem_ledger_of_outstanding old) rfl
    obtain rfl : t = t₀ := ok.unique known (mem_ordered_append known₀ _)
      (congrArg Transaction.crossShardTxID same)
    have unlocked : e ≠ .execute (lockTx k t) := by
      rintro rfl
      exact traced'.lock_not_executed ok waits rfl (by simp [executed])
    have view := traced.view_of_undecided ok taken known₀ undecided' unlocked
    exact (congrArg Chain.TxView.credits view).trans
      (kept.noted t known₀ undecided' old home positive)
  · obtain ⟨t', rfl, same, credits⟩ := taken.ordered_of_added new
    obtain rfl : t' = t := ok.unique (by simp [ordered]) known same
    have unnoted : n.chain.pendingCredits.get t'.id = none := by
      cases found : n.chain.pendingCredits.get t'.id with
      | none => rfl
      | some credits =>
          obtain ⟨t₀, known₀, id, -⟩ := traced.tables.credits t'.id credits found
          exact absurd id (ok.fresh known₀)
    rw [credits, Chain.get_pendingCredits_noteOrder, unnoted,
      if_pos ⟨positive, home.trans traced.shard.symm⟩]
    rfl

/-- A granted `Lock` books what it reserves, beside the credit noted before. -/
theorem booked_of_granted {t : CrossShardTx} {c : Chain}
    (lock : Chain.Granted n.chain n.evm (lockTx k t) c)
    (noted : shardOf t.toAddr = k → 0 < toBigInt t.value →
      n.chain.pendingCredits.get t.id = some [⟨t.toAddr, toBigInt t.value⟩]) : Booked k c t where
  funds source positive := by
    have value : toBigInt (lockTx k t).value = toBigInt t.value := by simp [lockTx, source]
    rw [lock.chain]
    simp only [Chain.reserved, value, positive, if_true, Chain.lockFunds]
    exact (FMap.get_set ..).trans (if_pos rfl)
  credit home positive := by
    rw [lock.chain, Chain.reserved_eq]
    exact noted home positive

theorem Bookkeeping.voted_step (kept : Bookkeeping k es n) (traced : Traced k es n)
    (ok : Disciplined (es ++ [e])) (taken : Taken vm n e n') {x : TxID}
    (vote : n'.chain.prepares.get x = some true ∨ n'.VotedYes x) :
    ∃ t ∈ ordered (es ++ [e]), t.id = x ∧ lockTx k t ∈ executed (es ++ [e]) ∧
      (verdict (es ++ [e]) x = none → Booked k n'.chain t) := by
  rcases taken.vote_cases vote with before | ⟨tx, rfl, ⟨kind, own⟩, lock, -⟩
  · obtain ⟨t, known, rfl, done, booked⟩ := kept.voted x before
    refine ⟨t, mem_ordered_append known _, rfl, mem_executed_append done _, fun undecided => ?_⟩
    have undecided' := verdict_of_append_none undecided
    refine (booked undecided').of_view (traced.view_of_undecided ok taken known undecided' ?_)
    rintro rfl
    exact traced.lock_not_executed ok.of_append taken.waits rfl done
  · have waits := taken.waits
    obtain ⟨t, known, -, rfl⟩ := traced.lock_of_kind (mem_ledger_of_outstanding waits) kind
    refine ⟨t, mem_ordered_append known _, own, by simp [executed], fun undecided => ?_⟩
    rw [← own] at undecided
    exact booked_of_granted lock
      (kept.noted t known (verdict_of_append_none undecided) waits)

theorem bookkeeping_start (k : Int) (evm : EVMState) : Bookkeeping k [] (Node.start k evm) where
  noted t known := by cases known
  voted x vote := by
    rcases vote with yes | ⟨block, member, yes⟩
    · simp [Node.start, Chain.newChain] at yes
    · rw [List.mem_singleton.1 member] at yes
      simp at yes

theorem bookkeeping_of_run (ok : Disciplined es)
    (reached : run (step vm) (Node.start k evm) es = some n) : Bookkeeping k es n :=
  run_invariant Disciplined (fun _ _ ok => ok.of_append) (Bookkeeping k) (bookkeeping_start k evm)
    (fun _ m _ _ ok before kept stepped =>
      have traced := traced_of_run ok.of_append before
      have traced' := traced_of_run ok (run_concat_eq_some.2 ⟨m, before, stepped⟩)
      have taken := taken_of_step stepped
      ⟨fun _ known undecided waits => kept.noted_step traced traced' ok taken known undecided waits,
        fun _ vote => kept.voted_step traced ok taken vote⟩)
    es n ok reached

/-! ## Only positive amounts of involved transactions move -/

/-- A transaction that was ordered as `x` involves the shard. -/
def Involving (k : Int) (es : List Event) (x : TxID) : Prop :=
  ∃ t ∈ ordered es, t.id = x ∧ k ∈ t.involvedShards

theorem Involving.append {x : TxID} (involving : Involving k es x) (fs : List Event) :
    Involving k (es ++ fs) x := by
  obtain ⟨t, known, facts⟩ := involving
  exact ⟨t, mem_ordered_append known fs, facts⟩

/-- Noted credits are positive and of involved transactions, and so is every amount that was
debited or credited or waits. -/
structure Grounded (k : Int) (es : List Event) (n : Node) : Prop where
  credits : ∀ x credits, n.chain.pendingCredits.get x = some credits →
    Involving k es x ∧ ∀ credit ∈ credits, 0 < credit.amount
  ledger : ∀ tx ∈ ledger es n, tx.txType = .crossDebit ∨ tx.txType = .crossCredit →
    Involving k es tx.crossShardTxID ∧ 0 < toBigInt tx.value

theorem Grounded.credits_step (grounded : Grounded k es n) (shard : n.chain.shardID = k)
    (taken : Taken vm n e n') {x : TxID} {credits : List PendingCredit}
    (found : n'.chain.pendingCredits.get x = some credits) :
    Involving k (es ++ [e]) x ∧ ∀ credit ∈ credits, 0 < credit.amount := by
  have old : ∀ {l}, n.chain.pendingCredits.get x = some l →
      Involving k (es ++ [e]) x ∧ ∀ credit ∈ l, 0 < credit.amount := fun before =>
    ⟨(grounded.credits x _ before).1.append _, (grounded.credits x _ before).2⟩
  have below : Chain.Below n'.chain n.chain →
      Involving k (es ++ [e]) x ∧ ∀ credit ∈ credits, 0 < credit.amount := by
    intro below
    rcases below.pendingCredits x credits found with same | ⟨-, all, before, sub⟩
    · exact old (same ▸ found)
    · exact ⟨(old before).1, fun credit member => (old before).2 credit (sub.subset member)⟩
  cases taken with
  | ordered t idle involved =>
      change (n.chain.noteOrder t).pendingCredits.get x = some credits at found
      by_cases own : x = t.id
      · subst own
        rw [Chain.get_pendingCredits_noteOrder] at found
        split at found
        · rename_i noted
          cases found
          refine ⟨⟨t, by simp [ordered], rfl, shard ▸ involved⟩, fun credit member => ?_⟩
          rcases List.mem_append.1 member with before | new
          · cases earlier : n.chain.pendingCredits.get t.id with
            | none => simp [earlier] at before
            | some all => exact (old earlier).2 credit (by simpa [earlier] using before)
          · rw [List.mem_singleton.1 new]
            exact noted.1
        · exact old found
      · refine old (Eq.trans ?_ found)
        exact (congrArg Chain.TxView.credits (Chain.view_noteOrder_of_ne own)).symm
  | granted tx rest successful busy kind chain lock =>
      change chain.pendingCredits.get x = some credits at found
      rw [lock.chain, Chain.reserved_eq] at found
      exact old found
  | refused tx rest successful busy kind chain lock result =>
      exact below (Chain.below_of_forgotten lock.forgotten lock.others)
  | applied tx rest successful busy kind free state ran =>
      exact below (n.chain.below_cleanupAfterExecution tx)
  | _ => exact old found

theorem Grounded.step (grounded : Grounded k es n) (traced : Traced k es n)
    (taken : Taken vm n e n') (commits : e ≠ .commitError) : Grounded k (es ++ [e]) n' where
  credits x credits found := grounded.credits_step traced.shard taken found
  ledger tx member kinds := by
    rcases List.mem_append.1 ((ledger_perm es taken commits).mem_iff.1 member) with old | new
    · obtain ⟨involving, positive⟩ := grounded.ledger tx old kinds
      exact ⟨involving.append _, positive⟩
    · have first : tx.txType.priority = 1 := by rcases kinds with kind | kind <;> rw [kind] <;> rfl
      obtain ⟨x, -, -, effect⟩ := effect_of_mem_added taken new first
      rcases mem_commitTxs.1 effect with ⟨lock, found, rfl⟩ | ⟨credits, found, credit, inside, rfl⟩ |
        ⟨call, -, -, rfl⟩ | ⟨rwSet, -, -, rfl⟩
      · obtain ⟨t, known, own, source, amount, rfl, -⟩ := traced.tables.funds x lock found
        refine ⟨⟨t, mem_ordered_append known _, own, ?_⟩, amount⟩
        exact CrossShardTx.mem_involvedShards.2 (.inl source.symm)
      · obtain ⟨involving, positive⟩ := grounded.credits x credits found
        exact ⟨involving.append _, positive credit inside⟩
      · rcases kinds with kind | kind <;> cases kind
      · rcases kinds with kind | kind <;> cases kind

theorem grounded_of_run (ok : Disciplined es)
    (reached : run (step vm) (Node.start k evm) es = some n) : Grounded k es n := by
  refine run_invariant Disciplined (fun _ _ ok => ok.of_append) (Grounded k) ?_
    (fun _ _ _ _ ok before grounded stepped =>
      grounded.step (traced_of_run ok.of_append before) (taken_of_step stepped)
        fun same => ok.commits (by simp [same]))
    es n ok reached
  constructor <;> simp [Node.start, Chain.newChain, ledger, executed, Node.outstanding]

/-! ## What a commit pays -/

/-- The debit that a commit of `t` queues on the source shard. -/
def debitOf (t : CrossShardTx) : Transaction := debitTx t.id ⟨t.fromAddr, toBigInt t.value⟩

/-- The credit that a commit of `t` queues on the shard of the recipient. -/
def creditOf (t : CrossShardTx) : Transaction := creditTx t.id ⟨t.toAddr, toBigInt t.value⟩

theorem mem_ledger_mono {fs : List Event} (commits : Event.commitError ∉ fs)
    (reached : run (step vm) n fs = some n') {tx : Transaction} (member : tx ∈ ledger es n) :
    tx ∈ ledger (es ++ fs) n' := by
  induction fs using List.reverseRecOn generalizing n' with
  | nil =>
      cases reached
      rwa [List.append_nil]
  | append_singleton fs e ih =>
      obtain ⟨m, early, stepped⟩ := run_concat_eq_some.1 reached
      rw [← List.append_assoc]
      refine (ledger_perm (es ++ fs) (taken_of_step stepped) ?_).mem_iff.2
        (List.mem_append_left _ (ih (fun inside => commits (List.mem_append_left _ inside)) early))
      exact fun same => commits (by simp [same])

/-- The decision that counts. -/
theorem verdict_split {x : TxID} {commit : Bool} (decided : verdict es x = some commit) :
    ∃ es₁ es₂, es = es₁ ++ .decision x commit :: es₂ ∧ verdict es₁ x = none := by
  induction es using List.reverseRecOn with
  | nil => cases decided
  | append_singleton es e ih =>
      rw [verdict_append] at decided
      cases before : verdict es x with
      | some commit' =>
          rw [before, Option.some_or] at decided
          obtain ⟨es₁, es₂, rfl, unheard⟩ := ih (before.trans decided)
          exact ⟨es₁, es₂ ++ [e], by simp, unheard⟩
      | none =>
          rw [before, Option.none_or] at decided
          have member := verdict_mem decided
          cases e with
          | decision y commit' =>
              cases List.mem_singleton.1 member
              exact ⟨es, [], rfl, before⟩
          | _ => cases member

/-- **A commit pays.**  A commit that is processed after the shard's YES queues the debit and the
credit of its transaction, as far as they concern the shard. -/
theorem paid_of_commit {es₁ es₂ : List Event} {m : Node} {t : CrossShardTx}
    (ok : Disciplined (es₁ ++ .decision t.id true :: es₂)) (known : t ∈ ordered es₁)
    (early : run (step vm) (Node.start k evm) es₁ = some m) (yes : m.VotedYes t.id)
    (undecided : verdict es₁ t.id = none)
    (late : run (step vm) m (.decision t.id true :: es₂) = some n) (positive : 0 < toBigInt t.value) :
    (t.fromShard = k → debitOf t ∈ ledger (es₁ ++ .decision t.id true :: es₂) n) ∧
      (shardOf t.toAddr = k → creditOf t ∈ ledger (es₁ ++ .decision t.id true :: es₂) n) := by
  have traced := traced_of_run ok.of_append early
  obtain ⟨t', known', same, -, booked⟩ := (bookkeeping_of_run ok.of_append early).voted _ (.inr yes)
  obtain rfl := ok.of_append.unique known' known same
  have booked := booked undecided
  obtain ⟨m', stepped, rest⟩ := run_cons_eq_some.1 late
  have fresh : m.chain.isCommitProcessed t'.id = false := by rw [traced.marked, undecided]; rfl
  have clean : Event.commitError ∉ es₂ :=
    fun inside => ok.commits (List.mem_append_right _ (List.mem_cons_of_mem _ inside))
  -- what the commit queues stays in the ledger
  have queued : ∀ tx ∈ m.chain.commitTxs t'.id,
      tx ∈ ledger (es₁ ++ .decision t'.id true :: es₂) n := by
    intro tx effect
    rw [← List.singleton_append, ← List.append_assoc]
    refine mem_ledger_mono clean rest ((ledger_perm es₁ (taken_of_step stepped)
      (by rintro ⟨⟩)).mem_iff.2 (List.mem_append_right _ ?_))
    simp [added, fresh, Chain.decisionTxs, effect]
  refine ⟨fun source => queued _ ?_, fun home => queued _ ?_⟩
  · exact mem_commitTxs.2 (.inl ⟨_, booked.funds source positive, rfl⟩)
  · exact mem_commitTxs.2
      (.inr (.inl ⟨_, booked.credit home positive, _, List.mem_singleton_self _, rfl⟩))

end Runs

end CrossShard.Shard
