/-
# Network.Settlement -- balances after a commit against simulated balances

The simulation of a call tracks every transfer that the call makes.  The shards settle a commit
from `Value`, `From` and `To` alone: the source shard debits `From`, and the owner of `To`
credits it if it is involved.  The two agree at every address exactly when the calls of the
simulation that no revert has undone amount to that one transfer.

* `Awaiting`: what a shard has recorded once it has voted for the transaction.
* `settle_balance`: the balances after the commit has executed.
* `committed_balances_iff`: when they are the simulated ones.
-/
import CrossShard.Network.Voters
import CrossShard.Orchestrator.Flows
import CrossShard.Orchestrator.Simulator
import CrossShard.Shard.Effects

namespace CrossShard.Shard

set_option autoImplicit false

open CrossShard.Library CrossShard.Protocol

/-! ## One transaction on one shard -/

namespace Chain

/-- Nothing is queued, and nothing is recorded about `txID`. -/
structure Unaware (c : Chain) (txID : TxID) : Prop where
  queue : c.currentTxs = []
  unprocessed : c.isCommitProcessed txID = false
  funds : c.locked.get txID = none
  credits : c.pendingCredits.get txID = none
  vote : c.prepares.get txID = none
  reserved : ∀ addr, 0 ≤ c.getLockedAmountForAddress addr

theorem unaware_newChain (shardID : Int) (txID : TxID) : (newChain shardID).Unaware txID where
  queue := rfl
  unprocessed := rfl
  funds := rfl
  credits := rfl
  vote := rfl
  reserved _ := le_rfl

/-- The shard processes the order of `X`, and nothing else, and produces a block. -/
def voteOn (vm : VM) (c : Chain) (evm : EVMState) (X : CrossShardTx) (height : Nat) (root : Hash) :
    Option Produced :=
  (c.processOrchestratorBlock ⟨height, ∅, [X]⟩).produceBlock vm evm (some root)

/-- After that it processes the commit of `X`, and nothing else, and produces another block. -/
def settle (vm : VM) (c : Chain) (evm : EVMState) (X : CrossShardTx) (height height' : Nat)
    (root : Hash) : Option Produced :=
  (c.voteOn vm evm X height root).bind fun p =>
    (p.chain.processOrchestratorBlock
      ⟨height', (∅ : AList fun _ : TxID => Bool).insert X.id true, []⟩).produceBlock vm p.evm
        (some root)

end Chain

/-- The block that the shard produces carries a YES on `X`. -/
def Chain.VotesYes (vm : VM) (c : Chain) (evm : EVMState) (X : CrossShardTx) (height : Nat)
    (root : Hash) : Prop :=
  ((c.voteOn vm evm X height root).bind fun p =>
    p.block.bind fun block => block.tpcPrepare.get X.id) = some true

instance (vm : VM) (c : Chain) (evm : EVMState) (X : CrossShardTx) (height : Nat) (root : Hash) :
    Decidable (c.VotesYes vm evm X height root) := inferInstanceAs (Decidable (_ = _))

/-- The shard takes the value of `X` from `a`. -/
def DebitedAt (X : CrossShardTx) (shardID : Int) (a : Address) : Prop :=
  (X.fromShard = shardID ∧ 0 < toBigInt X.value) ∧ X.fromAddr = a

/-- The shard gives the value of `X` to `a`. -/
def CreditedAt (X : CrossShardTx) (shardID : Int) (a : Address) : Prop :=
  (shardID ∈ X.involvedShards ∧ 0 < toBigInt X.value ∧ shardOf X.toAddr = shardID) ∧ X.toAddr = a

instance (X : CrossShardTx) (shardID : Int) (a : Address) : Decidable (DebitedAt X shardID a) :=
  inferInstanceAs (Decidable (_ ∧ _))

instance (X : CrossShardTx) (shardID : Int) (a : Address) : Decidable (CreditedAt X shardID a) :=
  inferInstanceAs (Decidable (_ ∧ _))

/-- What a commit of `X` adds to the balance of `a` on a shard. -/
def movedAt (X : CrossShardTx) (shardID : Int) (a : Address) : U256 :=
  (if CreditedAt X shardID a then BitVec.ofInt 256 (toBigInt X.value) else 0) -
    (if DebitedAt X shardID a then BitVec.ofInt 256 (toBigInt X.value) else 0)

/-- The shard has voted on `X` and holds what a commit needs. -/
structure Awaiting (X : CrossShardTx) (shardID : Int) (evm : EVMState) (height : Nat)
    (p : Produced) : Prop where
  state : p.evm = evm
  queue : p.chain.currentTxs = []
  unprocessed : p.chain.isCommitProcessed X.id = false
  height : p.chain.lastOrchestratorHeight = height
  funds : p.chain.locked.get X.id =
    if X.fromShard = shardID ∧ 0 < toBigInt X.value then some ⟨X.fromAddr, toBigInt X.value⟩ else none
  credits : p.chain.pendingCredits.get X.id =
    if shardID ∈ X.involvedShards ∧ 0 < toBigInt X.value ∧ shardOf X.toAddr = shardID then
      some [⟨X.toAddr, toBigInt X.value⟩]
    else none
  covered : X.fromShard = shardID → 0 < toBigInt X.value →
    toBigInt X.value ≤ (evm.balance X.fromAddr).toNat

section Vote

variable {vm : VM} {c : Chain} {evm : EVMState} {X : CrossShardTx} {height : Nat} {root : Hash}

theorem processOrder_block (next : c.lastOrchestratorHeight < height) :
    c.processOrchestratorBlock ⟨height, ∅, [X]⟩ =
      (c.processOrder X).setLastOrchestratorHeight height := by
  unfold Chain.processOrchestratorBlock
  rw [if_neg (by simpa using next)]
  rfl

theorem fromShard_involved (X : CrossShardTx) : X.fromShard ∈ X.involvedShards :=
  CrossShardTx.mem_involvedShards.2 (Or.inl rfl)

/-- The block of a loop that has ended. -/
theorem produceBlock_of_executeAll (root : Hash) {s : BlockState}
    (ran : BlockState.executeAll vm ⟨c, evm, []⟩ (Chain.sortTransactionsByPriority c.currentTxs) =
      some s) :
    c.produceBlock vm evm (some root) =
      some ⟨some (s.finish root).1, (s.finish root).2, s.evm⟩ := by
  simp only [Chain.produceBlock, ran, Option.map_some]

/-- A shard that is not involved has nothing to vote on. -/
theorem awaiting_of_foreign (unaware : c.Unaware X.id) (next : c.lastOrchestratorHeight < height)
    (foreign : c.shardID ∉ X.involvedShards) :
    ∃ p, c.voteOn vm evm X height root = some p ∧ Awaiting X c.shardID evm height p := by
  have source : X.fromShard ≠ c.shardID := fun same => foreign (same ▸ fromShard_involved X)
  let c₁ := c.setLastOrchestratorHeight height
  have ran : BlockState.executeAll vm ⟨c₁, evm, []⟩
      (Chain.sortTransactionsByPriority c₁.currentTxs) = some ⟨c₁, evm, []⟩ := by
    show BlockState.executeAll vm _ (Chain.sortTransactionsByPriority c.currentTxs) = _
    rw [unaware.queue]
    rfl
  have voted := produceBlock_of_executeAll root ran
  rw [Chain.voteOn, processOrder_block next, Chain.processOrder_of_foreign foreign]
  refine ⟨_, voted, rfl, rfl, unaware.unprocessed, rfl, ?_, ?_, fun same => absurd same source⟩
  · rw [if_neg fun own => source own.1]
    exact unaware.funds
  · rw [if_neg fun own => foreign own.1]
    exact unaware.credits

theorem value_lockTx (shardID : Int) (X : CrossShardTx) :
    toBigInt (Chain.lockTx shardID X).value =
      if X.fromShard = shardID then toBigInt X.value else 0 := by
  simp only [Chain.lockTx]
  split <;> rfl

/-- A `Lock` that is granted leaves what a commit needs. -/
theorem awaiting_of_granted (unaware : c.Unaware X.id) (involved : c.shardID ∈ X.involvedShards)
    {c' : Chain}
    (lock : Chain.Granted (((c.noteOrder X).addTx
      (Chain.lockTx c.shardID X)).setLastOrchestratorHeight height) evm
      (Chain.lockTx c.shardID X) c')
    {successful : List Transaction} {block : Option StateShardBlock} :
    Awaiting X c.shardID evm height
      ⟨block, (BlockState.finish ⟨c', evm, successful⟩ root).2, evm⟩ := by
  have amount := value_lockTx c.shardID X
  have steady := lock.steady
  refine ⟨rfl, rfl, ?_, ?_, ?_, ?_, ?_⟩
  · have marks := congrArg Chain.Steady.processedCommits steady
    have noted := congrArg Chain.Steady.processedCommits (c.steady_noteOrder X)
    show (c'.steady.processedCommits.get X.id).getD false = false
    rw [marks]
    show ((c.noteOrder X).steady.processedCommits.get X.id).getD false = false
    rw [noted]
    exact unaware.unprocessed
  · exact congrArg Chain.Steady.lastOrchestratorHeight steady
  · show c'.locked.get X.id = _
    rw [lock.chain]
    show (Chain.reserved _ _).locked.get X.id = _
    rw [Chain.reserved, amount]
    by_cases own : X.fromShard = c.shardID
    · by_cases positive : 0 < toBigInt X.value
      · simp [own, positive, Chain.lockFunds, Chain.lockTx, Chain.crossTx]
      · simp only [own, positive, if_true, if_false, and_false]
        show (c.noteOrder X).locked.get X.id = none
        rw [Chain.noteOrder_eq]
        exact unaware.funds
    · simp only [own, if_false, lt_irrefl, false_and]
      show (c.noteOrder X).locked.get X.id = none
      rw [Chain.noteOrder_eq]
      exact unaware.funds
  · show c'.pendingCredits.get X.id = _
    rw [lock.chain, Chain.reserved_eq]
    show (c.noteOrder X).pendingCredits.get X.id = _
    rw [Chain.get_pendingCredits_noteOrder, unaware.credits]
    simp only [involved, true_and, Option.getD_none, List.nil_append]
  · intro own positive
    have covered := lock.covered (by rw [amount, if_pos own]; exact positive)
    rw [amount, if_pos own] at covered
    have left := of_decide_eq_true covered
    have reserved : 0 ≤ (c.noteOrder X).getLockedAmountForAddress X.fromAddr := by
      rw [Chain.noteOrder_eq]
      exact unaware.reserved X.fromAddr
    have sender : (Chain.lockTx c.shardID X).fromAddr = X.fromAddr := rfl
    rw [sender] at left
    change toBigInt X.value ≤
      (evm.balance X.fromAddr).toNat - (c.noteOrder X).getLockedAmountForAddress X.fromAddr at left
    omega

/-- An involved shard that votes YES awaits the decision. -/
theorem awaiting_of_vote (unaware : c.Unaware X.id) (next : c.lastOrchestratorHeight < height)
    (involved : c.shardID ∈ X.involvedShards) (yes : c.VotesYes vm evm X height root) :
    ∃ p, c.voteOn vm evm X height root = some p ∧ Awaiting X c.shardID evm height p := by
  obtain ⟨p, voted, yes⟩ := Option.bind_eq_some_iff.1 yes
  refine ⟨p, voted, ?_⟩
  let lockTx := Chain.lockTx c.shardID X
  let c₁ := ((c.noteOrder X).addTx lockTx).setLastOrchestratorHeight height
  have queue : c₁.currentTxs = [lockTx] := by
    show (c.noteOrder X).currentTxs ++ [lockTx] = _
    rw [currentTxs_noteOrder, unaware.queue]
    rfl
  rw [Chain.voteOn, processOrder_block next, Chain.processOrder_of_involved involved] at voted
  change c₁.produceBlock vm evm (some root) = some p at voted
  have one : ∀ s, BlockState.executeOne vm ⟨c₁, evm, []⟩ lockTx = some s →
      BlockState.executeAll vm ⟨c₁, evm, []⟩ (Chain.sortTransactionsByPriority c₁.currentTxs) =
        some s := by
    intro s ran
    rw [queue]
    show (BlockState.executeOne vm _ lockTx).bind _ = _
    rw [ran]
    rfl
  rcases Chain.executeLock_cases c₁ evm (show lockTx.txType = .lock from rfl) with
    ⟨c', result, lock⟩ | ⟨c', result, refused⟩
  · have done : Executed vm ⟨c₁, evm, []⟩ lockTx ⟨c', evm, [lockTx]⟩ := .granted rfl c' lock result
    rw [produceBlock_of_executeAll root (one _ done.executeOne)] at voted
    cases voted
    exact awaiting_of_granted unaware involved lock
  · have done : Executed vm ⟨c₁, evm, []⟩ lockTx ⟨c', evm, []⟩ := .refused rfl c' refused result
    rw [produceBlock_of_executeAll root (one _ done.executeOne)] at voted
    cases voted
    change c'.prepares.get X.id = some true at yes
    rw [refused.vote] at yes
    have refusal : (lockTx).crossShardTxID = X.id := rfl
    simp [refusal] at yes

end Vote

/-! ## The commit -/

section Commit

variable {vm : VM} {c : Chain} {evm : EVMState} {X : CrossShardTx} {shardID : Int}
  {height height' : Nat} {p : Produced}

/-- The transactions of a commit are queued in the order in which they execute. -/
theorem sort_decisionTxs (c : Chain) (txID : TxID) :
    Chain.sortTransactionsByPriority (c.decisionTxs txID true) = c.decisionTxs txID true := by
  have effects : ∀ tx ∈ c.commitTxs txID, tx.txType.priority = 1 := by
    intro tx member
    rcases mem_commitTxs.1 member with ⟨lock, -, rfl⟩ | ⟨credits, -, credit, -, rfl⟩ |
      ⟨call, -, -, rfl⟩ | ⟨rwSet, -, -, rfl⟩ <;> rfl
  refine List.Pairwise.insertionSort_eq (List.pairwise_append.2 ⟨?_, List.pairwise_singleton _ _, ?_⟩)
  · exact List.pairwise_of_forall_mem_list fun tx member tx' member' =>
      (effects tx member).trans_le (effects tx' member').ge
  · intro tx member tx' last
    rw [List.mem_singleton.1 last]
    exact (effects tx member).trans_le (Nat.le_succ 1)

/-- The commit of an ID that was not decided before queues its transactions. -/
theorem processCommit_block (next : c.lastOrchestratorHeight < height') (queue : c.currentTxs = [])
    {txID : TxID} (fresh : c.isCommitProcessed txID = false) :
    ∃ c', c.processOrchestratorBlock
        ⟨height', (∅ : AList fun _ : TxID => Bool).insert txID true, []⟩ = c' ∧
      c'.currentTxs = c.decisionTxs txID true := by
  refine ⟨_, rfl, ?_⟩
  unfold Chain.processOrchestratorBlock
  rw [if_neg (by simpa using next)]
  show (c.processResult ⟨txID, true⟩).currentTxs = _
  simp only [Chain.processResult, Chain.checkAndMarkCommitProcessed, fresh, Bool.false_eq_true,
    if_false, if_true, Chain.addTxs, queue, List.nil_append]
  rfl

theorem Awaiting.fits (awaiting : Awaiting X shardID evm height p)
    (fits : 0 < toBigInt X.value → toBigInt X.value < 2 ^ 256) {tx : Transaction}
    (member : tx ∈ p.chain.decisionTxs X.id true) : (toBigInt tx.value).natAbs < 2 ^ 256 := by
  have small : 0 < toBigInt X.value → (toBigInt X.value).natAbs < 2 ^ 256 := by
    intro positive
    have := fits positive
    omega
  have zero : (toBigInt none).natAbs < 2 ^ 256 := by decide
  rcases mem_decisionTxs member with ⟨-, effect⟩ | ⟨-, rfl⟩ | rfl
  · rcases mem_commitTxs.1 effect with ⟨lock, found, rfl⟩ | ⟨credits, found, credit, listed, rfl⟩ |
        ⟨call, -, -, rfl⟩ | ⟨rwSet, -, -, rfl⟩
    · rw [awaiting.funds] at found
      split at found
      · rename_i own
        cases found
        exact small own.2
      · cases found
    · rw [awaiting.credits] at found
      split at found
      · rename_i own
        cases found
        rw [List.mem_singleton.1 listed]
        exact small own.2.1
      · cases found
    · exact zero
    · exact zero
  · exact zero
  · exact zero

/-- A commit queues its debit first. -/
theorem debit_first (c : Chain) (txID : TxID) :
    ∃ rest, c.decisionTxs txID true = (c.locked.get txID).toList.map (Chain.debitTx txID) ++ rest ∧
      ∀ tx ∈ rest, tx.txType ≠ .crossDebit := by
  refine ⟨_, by simp only [Chain.decisionTxs, Chain.commitTxs, if_true, List.append_assoc]; rfl, ?_⟩
  intro tx member
  simp only [List.mem_append, List.mem_map, List.mem_filterMap, List.mem_singleton] at member
  rcases member with ⟨credit, -, rfl⟩ | ⟨call, -, made⟩ | ⟨rwSet, -, made⟩ | rfl
  · rintro ⟨⟩
  · split at made
    · cases made
    · cases made
      rintro ⟨⟩
  · split at made
    · cases made
    · cases made
      rintro ⟨⟩
  · rintro ⟨⟩

theorem Awaiting.pays (awaiting : Awaiting X shardID evm height p)
    (fits : 0 < toBigInt X.value → toBigInt X.value < 2 ^ 256) :
    Pays (p.chain.decisionTxs X.id true) evm := by
  obtain ⟨rest, split, free⟩ := debit_first p.chain X.id
  have small : ∀ tx ∈ p.chain.decisionTxs X.id true, (toBigInt tx.value).natAbs < 2 ^ 256 :=
    fun _ member => awaiting.fits fits member
  rw [split] at small ⊢
  refine pays_append.2 ⟨?_, pays_of_no_debit
    (fun tx member => small tx (List.mem_append_right _ member)) free⟩
  have covered := awaiting.covered
  rw [awaiting.funds] at small ⊢
  split
  · rename_i own
    rw [if_pos own] at small
    refine ⟨small _ (List.mem_append_left _ List.mem_cons_self), fun _ => ?_, trivial⟩
    have enough := covered own.1 own.2
    have below := fits own.2
    have positive := own.2
    show BitVec.ofInt 256 (toBigInt X.value) ≤ evm.balance X.fromAddr
    rw [BitVec.le_def, BitVec.toNat_ofInt, Int.emod_eq_of_lt (by omega) (by simpa using below)]
    omega
  · trivial

theorem moveAt_debitTx (a : Address) (txID : TxID) (lock : LockedFunds) :
    moveAt a (Chain.debitTx txID lock) =
      0 - if lock.address = a then BitVec.ofInt 256 lock.amount else 0 := by
  simp only [moveAt, Chain.debitTx, Chain.crossTx, reduceCtorEq, false_and, if_false, true_and]
  rfl

theorem moveAt_creditTx (a : Address) (txID : TxID) (credit : PendingCredit) :
    moveAt a (Chain.creditTx txID credit) =
      if credit.address = a then BitVec.ofInt 256 credit.amount else 0 := by
  simp only [moveAt, Chain.creditTx, Chain.crossTx, reduceCtorEq, false_and, if_false, true_and]
  exact BitVec.sub_zero _

theorem Awaiting.moved (awaiting : Awaiting X shardID evm height p) (a : Address) :
    ((p.chain.decisionTxs X.id true).map (moveAt a)).sum = movedAt X shardID a := by
  rw [sum_decisionTxs (moveAt a) (fun tx noDebit noCredit => by simp [moveAt, noDebit, noCredit])]
  have debit : ((p.chain.locked.get X.id).toList.map fun lock =>
      moveAt a (Chain.debitTx X.id lock)).sum =
        0 - if DebitedAt X shardID a then BitVec.ofInt 256 (toBigInt X.value) else 0 := by
    rw [awaiting.funds]
    split
    · rename_i own
      simp [moveAt_debitTx, DebitedAt, own]
    · rename_i foreign
      simp [DebitedAt, foreign]
  have credit : (((p.chain.pendingCredits.get X.id).getD []).map fun credit =>
      moveAt a (Chain.creditTx X.id credit)).sum =
        if CreditedAt X shardID a then BitVec.ofInt 256 (toBigInt X.value) else 0 := by
    rw [awaiting.credits]
    split
    · rename_i own
      simp [moveAt_creditTx, CreditedAt, own]
    · rename_i foreign
      simp [CreditedAt, foreign]
  rw [debit, credit, movedAt, zero_sub, neg_add_eq_sub]

variable (vm) in
/-- **Balances after a commit**: the value of `X` has moved from `From` to `To`, as far as the
shard takes part. -/
theorem settle_balance (awaiting : Awaiting X shardID evm height p) (later : height < height')
    (fits : 0 < toBigInt X.value → toBigInt X.value < 2 ^ 256) (root : Hash) :
    ∃ q, (p.chain.processOrchestratorBlock
        ⟨height', (∅ : AList fun _ : TxID => Bool).insert X.id true, []⟩).produceBlock vm p.evm
          (some root) = some q ∧
      ∀ a, q.evm.balance a = evm.balance a + movedAt X shardID a := by
  obtain ⟨c', processed, queue⟩ := processCommit_block (awaiting.height ▸ later) awaiting.queue
    awaiting.unprocessed
  have settling : ∀ tx ∈ p.chain.decisionTxs X.id true, Settling tx := fun tx member =>
    settling_of_mem_decisionTxs member
  have ran : BlockState.executeAll vm ⟨c', evm, []⟩ (p.chain.decisionTxs X.id true) = _ :=
    executeAll_settling settling (awaiting.pays fits)
  rw [← sort_decisionTxs, ← queue] at ran
  rw [processed, awaiting.state]
  refine ⟨_, produceBlock_of_executeAll root ran, fun a => ?_⟩
  show (List.foldl EVMState.effect evm _).balance a = _
  rw [queue, sort_decisionTxs, balance_foldl_effect, awaiting.moved]

end Commit

end CrossShard.Shard

namespace CrossShard.Network

set_option autoImplicit false

open CrossShard.Library CrossShard.Protocol CrossShard.Shard CrossShard.Orchestrator

/-! ## Committed and simulated balances -/

/-- A flow ends where a transfer does exactly if it is that transfer, and gives back what it
erased. -/
theorem applied_eq_iff (flow : Flow) (balance moved : Orchestrator.U256) :
    balance + moved = flow.applied balance ↔
      flow.net = moved + if flow.erased then balance else 0 := by
  unfold Flow.applied
  cases flow.erased with
  | true => 
      simp only [if_true, zero_add]
      rw [add_comm, eq_comm]
  | false =>
      simp only [Bool.false_eq_true, if_false, add_zero]
      rw [add_right_inj, eq_comm]

/-- A cross-shard transaction that is simulated, ordered, voted for by all involved shards and
committed, while nothing else happens.  The shards hold the balances of the backing state, have
nothing queued and nothing recorded about the transaction. -/
structure Commitment where
  world : World
  backing : Backing
  serves : world.Serves backing
  call : EvmCall
  job : CrossShardTx
  succeeded : execErr (execute world call job) = none
  vm : VM
  shards : Int → Chain
  evms : Int → EVMState
  height : Nat
  commitHeight : Nat
  root : Hash
  named : ∀ k, (shards k).shardID = k
  unaware : ∀ k, (shards k).Unaware job.id
  next : ∀ k, (shards k).lastOrchestratorHeight < height
  later : height < commitHeight
  backed : ∀ a, (evms (world.addressToShard a)).balance a = backing.balance a
  votes : ∀ k ∈ (simulatedTx world job (execute world call job)).involvedShards,
    (shards k).VotesYes vm (evms k) (simulatedTx world job (execute world call job)) height root

namespace Commitment

/-- What `runSimulation` hands to `onSuccess`. -/
def tx (C : Commitment) : CrossShardTx := simulatedTx C.world C.job (execute C.world C.call C.job)

/-- The calls of the simulation. -/
def ops (C : Commitment) : List DBOp := (execute C.world C.call C.job).ops

/-- The final balance in the simulation. -/
def simulatedBalance (C : Commitment) (a : Address) : Orchestrator.U256 :=
  (execute C.world C.call C.job).db.balanceAt C.world a

/-- A shard after the commit has executed. -/
def settled (C : Commitment) (k : Int) : Option Produced :=
  (C.shards k).settle C.vm (C.evms k) C.tx C.height C.commitHeight C.root

/-- Every address has its simulated balance on the shard that owns it. -/
def Faithful (C : Commitment) : Prop :=
  ∀ a, ∃ q, C.settled (C.world.addressToShard a) = some q ∧ q.evm.balance a = C.simulatedBalance a

theorem awaiting (C : Commitment) (k : Int) :
    ∃ p, (C.shards k).voteOn C.vm (C.evms k) C.tx C.height C.root = some p ∧
      Awaiting C.tx k (C.evms k) C.height p := by
  have home := C.named k
  have unaware : (C.shards k).Unaware C.tx.id := C.unaware k
  suffices found : ∃ p, (C.shards k).voteOn C.vm (C.evms k) C.tx C.height C.root = some p ∧
      Awaiting C.tx (C.shards k).shardID (C.evms k) C.height p by rwa [home] at found
  by_cases involved : (C.shards k).shardID ∈ C.tx.involvedShards
  · exact awaiting_of_vote unaware (C.next k) involved (C.votes k (home ▸ involved))
  · exact awaiting_of_foreign unaware (C.next k) involved

/-- The source shard has reserved the value. -/
theorem value_fits (C : Commitment) (positive : 0 < toBigInt C.tx.value) :
    toBigInt C.tx.value < 2 ^ 256 := by
  obtain ⟨p, -, holds⟩ := C.awaiting C.tx.fromShard
  have covered := holds.covered rfl positive
  have bounded := ((C.evms C.tx.fromShard).balance C.tx.fromAddr).isLt
  omega

theorem settled_balance (C : Commitment) (a : Address) :
    ∃ q, C.settled (C.world.addressToShard a) = some q ∧
      q.evm.balance a = C.backing.balance a + movedAt C.tx (C.world.addressToShard a) a := by
  obtain ⟨p, voted, holds⟩ := C.awaiting (C.world.addressToShard a)
  obtain ⟨q, ran, balances⟩ := settle_balance C.vm holds C.later C.value_fits C.root
  refine ⟨q, ?_, ?_⟩
  · rw [settled, Chain.settle, voted, Option.bind_some, ran]
  · rw [balances a, C.backed a]

end Commitment

/-- **Committed against simulated balances.**  After a commit every address has, on the shard that
owns it, its final balance in the simulation, if and only if at every address the calls of the
simulation that no revert has undone add up to the transfer that the shards settle, of the value
from `From` to `To`, apart from giving back a balance that one of the calls erased. -/
theorem committed_balances_iff (C : Commitment) :
    C.Faithful ↔ ∀ a, (flows C.ops a).net = movedAt C.tx (C.world.addressToShard a) a +
      if (flows C.ops a).erased then C.backing.balance a else 0 := by
  refine forall_congr' fun a => ?_
  obtain ⟨q, settled, committed⟩ := C.settled_balance a
  have simulated : C.simulatedBalance a = (flows C.ops a).applied (C.backing.balance a) :=
    balance_of_flows C.serves _ _ _ a
  rw [← applied_eq_iff, ← simulated, ← committed]
  constructor
  · rintro ⟨q', settled', same⟩
    rw [settled] at settled'
    cases settled'
    exact same
  · exact fun same => ⟨q, settled, same⟩

namespace SettlementPole

def alice : Address := 0x100
def forwarder : Address := 0x101
def dave : Address := 0x102

def funded : EVMState := ⟨fun a => if a = alice then 100 else 0, fun _ _ => 0, fun _ => []⟩

def backing : Backing := ⟨fun a => ⟨some (funded.balance a), 0, [], 0⟩, fun _ _ => 0⟩

def world : World where
  numShards := 8
  fetchState _ a := .ok (backing.account a)
  getStorageAt _ a s := .ok (backing.storage a s)
  keccak256Hash _ := 1

def transfer (sender recipient : Address) (amount : Orchestrator.U256)
    (next : Program CallResult) : Program CallResult :=
  .call (.subBalance sender amount) fun _ => .call (.addBalance recipient amount) fun _ => next

/-- A contract that reads its first slot and sends the value on to `dave`. -/
def forwarding : EvmCall := fun caller addr _ _ value =>
  .call .snapshot fun _ => transfer caller addr value <| .call (.getState addr 0) fun _ =>
    transfer addr dave value <| .done ⟨0, none⟩

/-- A contract that keeps what it gets. -/
def keeping : EvmCall := fun caller addr _ _ value =>
  .call .snapshot fun _ => transfer caller addr value <| .done ⟨0, none⟩

def payment : CrossShardTx where
  id := "tx-1"
  fromShard := 0
  fromAddr := alice
  toAddr := forwarder
  value := some 10
  data := [1]
  rwSet := []

def vm : VM := ⟨fun e _ _ _ _ _ => .ok e⟩

def forwarded : Commitment where
  world := world
  backing := backing
  serves := ⟨fun _ => rfl, fun _ _ => rfl⟩
  call := forwarding
  job := payment
  succeeded := by decide +kernel
  vm := vm
  shards := Chain.newChain
  evms _ := funded
  height := 1
  commitHeight := 2
  root := 0
  named _ := rfl
  unaware k := Chain.unaware_newChain k _
  next _ := Nat.zero_lt_one
  later := by decide
  backed _ := rfl
  votes := by decide +kernel

def kept : Commitment :=
  { forwarded with call := keeping, succeeded := by decide +kernel, votes := by decide +kernel }

end SettlementPole

open SettlementPole in
/-- A contract that keeps the value: simulation and shards agree at every address. -/
theorem kept_value_is_settled : kept.Faithful := by
  have moves : kept.ops = [.snapshot, .subBalance alice 10, .addBalance forwarder 10] := rfl
  refine (committed_balances_iff kept).2 fun a => ?_
  by_cases sender : a = alice
  · subst sender
    decide +kernel
  · by_cases recipient : a = forwarder
    · subst recipient
      decide +kernel
    · have still : flows kept.ops a = .still := by
        rw [moves]
        show Function.update (Function.update _ alice _) forwarder _ a = _
        rw [Function.update_of_ne recipient, Function.update_of_ne sender]
        rfl
      have uncredited : ¬CreditedAt kept.tx (kept.world.addressToShard a) a :=
        fun credited => recipient credited.2.symm
      have undebited : ¬DebitedAt kept.tx (kept.world.addressToShard a) a :=
        fun debited => sender debited.2.symm
      rw [still, movedAt, if_neg uncredited, if_neg undebited]
      rfl

open SettlementPole in
/-- The simulation ends with the 10 at `dave`; after the commit they are at the contract. -/
theorem forwarded_value_stays :
    (runSimulation forwarded.world forwarded.call forwarded.job).1 = .onSuccess forwarded.tx ∧
      forwarded.tx.involvedShards = [1, 2, 0] ∧
      [alice, forwarder, dave].map forwarded.simulatedBalance = [90, 0, 10] ∧
      (forwarded.settled 0).map (fun q => q.evm.balance alice) = some 90 ∧
      (forwarded.settled 1).map (fun q => q.evm.balance forwarder) = some 10 ∧
      (forwarded.settled 2).map (fun q => q.evm.balance dave) = some 0 ∧ ¬forwarded.Faithful := by
  have final : forwarded.simulatedBalance dave = 10 := by decide +kernel
  have committed : (forwarded.settled 2).map (fun q => q.evm.balance dave) = some 0 := by
    decide +kernel
  refine ⟨by decide +kernel, by decide +kernel, by decide +kernel, by decide +kernel,
    by decide +kernel, committed, ?_⟩
  intro faithful
  obtain ⟨q, settled, same⟩ := faithful dave
  change forwarded.settled 2 = some q at settled
  rw [settled, Option.map_some, same, final] at committed
  exact absurd committed (by decide)

end CrossShard.Network
