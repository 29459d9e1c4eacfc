/-
# Network.Conservation -- where value goes

A transfer between shards is a debit on one shard and a credit on another, executed at different
times, each on its own.  `value_accounted` says what this does to the sum of all balances of all
shards once every shard has processed the decisions: nothing, except that a committed transfer whose
debit has failed adds its amount, and a committed transfer whose recipient lives on a shard that it
does not involve takes it away.

`value_conserved` rules both out: recipients on involved shards, and local transfers that keep off
reserved funds.
-/
import Mathlib.Tactic.Abel
import CrossShard.Network.Preparation
import CrossShard.Shard.Accounting
import CrossShard.Shard.FundLocks

namespace CrossShard.Network

set_option autoImplicit false

open CrossShard.Library CrossShard.Protocol CrossShard.Shard CrossShard.Orchestrator

/-! ## The two halves of a transfer -/

/-- A half of a transfer: the transaction that makes it, and the shard it belongs to. -/
structure Half where
  kind : TxType
  payment : CrossShardTx → Transaction
  site : CrossShardTx → Int
  money : kind = .crossDebit ∨ kind = .crossCredit
  payment_kind : ∀ t, (payment t).txType = kind
  payment_id : ∀ t, (payment t).crossShardTxID = t.id
  payment_value : ∀ t, toBigInt (payment t).value = toBigInt t.value
  payment_eq : ∀ k t tx, Effect k t tx → tx.txType = kind → site t = k ∧ tx = payment t

def debitHalf : Half where
  kind := .crossDebit
  payment := debitOf
  site := CrossShardTx.fromShard
  money := .inl rfl
  payment_kind _ := rfl
  payment_id _ := rfl
  payment_value _ := rfl
  payment_eq k t tx caused kind := by
    cases caused with
    | debit source => exact ⟨source, rfl⟩
    | _ => cases kind

def creditHalf : Half where
  kind := .crossCredit
  payment := creditOf
  site t := shardOf t.toAddr
  money := .inr rfl
  payment_kind _ := rfl
  payment_id _ := rfl
  payment_value _ := rfl
  payment_eq k t tx caused kind := by
    cases caused with
    | credit home => exact ⟨home, rfl⟩
    | _ => cases kind

/-- The half was executed with success. -/
def Half.Made (half : Half) (net : Cluster) (t : CrossShardTx) : Prop :=
  half.payment t ∈ executionOrder net (half.site t)

instance (half : Half) (net : Cluster) (t : CrossShardTx) : Decidable (half.Made net t) :=
  inferInstanceAs (Decidable (_ ∈ _))

/-- The committed transfers of a positive amount. -/
def transfers (c : OrchestratorChain) : List CrossShardTx :=
  c.orders.filter fun t => c.Decided t.id true ∧ 0 < toBigInt t.value

/-- The sum of the amounts of some transfers. -/
def amounts (ts : List CrossShardTx) : Shard.U256 := (ts.map fun t => amountOf t.value).sum

/-- Sorting transfers by site loses none. -/
theorem amounts_by_site (ts : List CrossShardTx) (K : Finset Int) (site : CrossShardTx → Int)
    (p : CrossShardTx → Prop) [DecidablePred p] (covered : ∀ t ∈ ts, p t → site t ∈ K) :
    ∑ k ∈ K, amounts (ts.filter fun t => site t = k ∧ p t) = amounts (ts.filter fun t => p t) := by
  induction ts with
  | nil => simp [amounts]
  | cons t ts ih =>
      have rest := ih fun t' member => covered t' (List.mem_cons_of_mem _ member)
      by_cases pass : p t
      · have inside := covered t List.mem_cons_self pass
        have first : ∀ k, amounts ((t :: ts).filter fun t => site t = k ∧ p t) =
            (if site t = k then amountOf t.value else 0) +
              amounts (ts.filter fun t => site t = k ∧ p t) := by
          intro k
          by_cases own : site t = k <;> simp [amounts, own, pass]
        simp only [first, Finset.sum_add_distrib, rest, Finset.sum_ite_eq, inside, if_true]
        simp [amounts, pass]
      · simpa [amounts, pass] using rest

theorem sum_moves (txs : List Transaction) :
    (txs.map moves).sum =
      ((txs.filter fun tx => tx.txType = .crossCredit).map fun tx => amountOf tx.value).sum -
        ((txs.filter fun tx => tx.txType = .crossDebit).map fun tx => amountOf tx.value).sum := by
  induction txs with
  | nil => simp
  | cons tx txs ih =>
      rw [List.map_cons, List.sum_cons, ih]
      cases kind : tx.txType <;> simp [moves, kind] <;> abel

section Runs

variable {E : Engines} {numShards : Nat} {evm : Int → EVMState} {as : List Action} {net : Cluster}

/-- **The payments of a shard are those of the committed transfers.** -/
theorem Regular.payments_perm (regular : Regular E numShards evm as net) (half : Half) (k : Int) :
    ((executionOrder net k).filter fun tx => tx.txType = half.kind).Perm
      (((transfers net.service.chain).filter fun t => half.site t = k ∧ half.Made net t).map
        half.payment) := by
  have disciplined := regular.disciplined k
  have traced := traced_of_run disciplined (regular.eventsRun k)
  have grounded := grounded_of_run disciplined (regular.eventsRun k)
  have sub : (executionOrder net k).Sublist
      (ledger (eventsOf E (Cluster.start numShards evm) k as) (net.shards k).node) := by
    rw [← included_node]
    exact (included_sublist disciplined.commits (regular.eventsRun k)).trans
      (List.sublist_append_left _ _)
  have once : ((executionOrder net k).filter fun tx => tx.txType = half.kind).Nodup := by
    have all := traced.effects.sublist ((sub.filter _).map label)
    refine all.of_map.sublist (List.monotone_filter_right _ fun tx kind => ?_)
    rw [decide_eq_true_eq] at kind ⊢
    rw [kind]
    rcases half.money with money | money <;> rw [money] <;> rfl
  have once' : (((transfers net.service.chain).filter fun t => half.site t = k ∧ half.Made net t).map
      half.payment).Nodup := by
    refine List.Nodup.of_map Transaction.crossShardTxID ?_
    rw [List.map_map, show Transaction.crossShardTxID ∘ half.payment = CrossShardTx.id from
      funext half.payment_id]
    exact regular.log.distinct.sublist ((List.filter_sublist.trans List.filter_sublist).map _)
  refine (List.perm_ext_iff_of_nodup once once').2 fun tx => ?_
  simp only [List.mem_filter, List.mem_map, decide_eq_true_eq]
  constructor
  · rintro ⟨inside, kind⟩
    have member := sub.subset inside
    have first : tx.txType.priority = 1 := by
      rw [kind]
      rcases half.money with money | money <;> rw [money] <;> rfl
    obtain ⟨t, known, committed, caused⟩ := (traced.queued tx member).effect_of_priority first
    obtain ⟨site, rfl⟩ := half.payment_eq k t tx caused kind
    obtain ⟨-, positive⟩ := grounded.ledger _ member (kind ▸ half.money)
    rw [half.payment_value] at positive
    refine ⟨t, ⟨List.mem_filter.2 ⟨regular.ordered_subset k t known, ?_⟩, site, ?_⟩, rfl⟩
    · rw [decide_eq_true_eq]
      exact ⟨regular.decided_of_decision (verdict_mem committed), positive⟩
    · rw [Half.Made, site]
      exact inside
  · rintro ⟨t, ⟨-, site, made⟩, rfl⟩
    rw [Half.Made, site] at made
    exact ⟨made, half.payment_kind t⟩

/-- **The balances of one shard.** -/
theorem Regular.total_eq (conserving : Conserving E.vm) (regular : Regular E numShards evm as net)
    (k : Int) :
    (net.shards k).evmState.total = (evm k).total +
      (amounts ((transfers net.service.chain).filter fun t =>
          creditHalf.site t = k ∧ creditHalf.Made net t) -
        amounts ((transfers net.service.chain).filter fun t =>
          debitHalf.site t = k ∧ debitHalf.Made net t)) := by
  have total := total_of_run conserving (regular.disciplined k).commits (regular.eventsRun k)
  have half_sum : ∀ half : Half,
      (((executionOrder net k).filter fun tx => tx.txType = half.kind).map fun tx =>
        amountOf tx.value).sum =
      amounts ((transfers net.service.chain).filter fun t => half.site t = k ∧ half.Made net t) := by
    intro half
    rw [((regular.payments_perm half k).map _).sum_eq, List.map_map, amounts]
    refine congrArg List.sum (List.map_congr_left fun t _ => ?_)
    show amountOf (half.payment t).value = amountOf t.value
    rw [amountOf, half.payment_value, amountOf]
  rw [Accounted, included_node, sum_moves] at total
  rw [← half_sum creditHalf, ← half_sum debitHalf]
  exact total

theorem mem_transfers {c : OrchestratorChain} {t : CrossShardTx} :
    t ∈ transfers c ↔ t ∈ c.orders ∧ c.Decided t.id true ∧ 0 < toBigInt t.value := by
  simp [transfers]

/-- Only an involved shard credits a recipient. -/
theorem Regular.involved_of_credited (regular : Regular E numShards evm as net) {t : CrossShardTx}
    (logged : t ∈ net.service.chain.orders) (made : creditHalf.Made net t) :
    shardOf t.toAddr ∈ t.involvedShards := by
  have disciplined := regular.disciplined (shardOf t.toAddr)
  have reached := regular.eventsRun (shardOf t.toAddr)
  rw [Half.Made, show creditHalf.site t = shardOf t.toAddr from rfl, ← included_node] at made
  have inside : creditOf t ∈ ledger _ (net.shards (shardOf t.toAddr)).node :=
    List.mem_append_left _ ((included_sublist disciplined.commits reached).subset made)
  obtain ⟨⟨t', known, same, involved⟩, -⟩ :=
    (grounded_of_run disciplined reached).ledger _ inside (.inr rfl)
  obtain rfl := regular.order_unique (regular.ordered_subset _ t' known) logged same
  exact involved

/-- **The balances of all shards.**  At any time they are the initial ones plus what is credited
and less what is debited by now. -/
theorem Regular.sum_total_eq (conserving : Conserving E.vm)
    (regular : Regular E numShards evm as net) (K : Finset Int)
    (covered : ∀ t ∈ net.service.chain.orders, ∀ k ∈ t.involvedShards, k ∈ K) :
    ∑ k ∈ K, (net.shards k).evmState.total = ∑ k ∈ K, (evm k).total +
      (amounts ((transfers net.service.chain).filter fun t => creditHalf.Made net t) -
        amounts ((transfers net.service.chain).filter fun t => debitHalf.Made net t)) := by
  have credits := amounts_by_site (transfers net.service.chain) K creditHalf.site
    (creditHalf.Made net) fun t member made =>
      covered t (mem_transfers.1 member).1 _
        (regular.involved_of_credited (mem_transfers.1 member).1 made)
  have debits := amounts_by_site (transfers net.service.chain) K debitHalf.site
    (debitHalf.Made net) fun t member _ =>
      covered t (mem_transfers.1 member).1 _ (CrossShardTx.mem_involvedShards.2 (.inl rfl))
  simp only [regular.total_eq conserving, Finset.sum_add_distrib, Finset.sum_sub_distrib]
  rw [credits, debits]

/-! ## Settled shards -/

/-- The shard has executed all it has queued, and has heard of every commit that involves it. -/
structure Settled (net : Cluster) (k : Int) : Prop where
  drained : (net.shards k).chain.currentTxs = []
  heard : ∀ t ∈ transfers net.service.chain, k ∈ t.involvedShards →
    (net.shards k).chain.isCommitProcessed t.id = true

/-- **A settled shard has executed its half,** or has tried to. -/
theorem Regular.executed_of_settled (regular : Regular E numShards evm as net) {t : CrossShardTx}
    (member : t ∈ transfers net.service.chain) {k : Int} (involved : k ∈ t.involvedShards)
    (settled : Settled net k) :
    (t.fromShard = k → debitOf t ∈ executed (eventsOf E (Cluster.start numShards evm) k as)) ∧
      (shardOf t.toAddr = k →
        creditOf t ∈ executed (eventsOf E (Cluster.start numShards evm) k as)) := by
  obtain ⟨logged, committed, positive⟩ := mem_transfers.1 member
  have disciplined := regular.disciplined k
  have reached := regular.eventsRun k
  -- the decision that the shard has heard is the commit
  have mark := (traced_of_run disciplined reached).marked t.id
  rw [show (net.shards k).node.chain.isCommitProcessed t.id = true from
    settled.heard t member involved] at mark
  obtain ⟨commit, decided⟩ := Option.isSome_iff_exists.1 mark.symm
  obtain ⟨J, tracked, -⟩ := tracked_of_run regular.reached regular.distinct
  obtain rfl := tracked.decided_unique regular.distinct
    (regular.decided_of_decision (verdict_mem decided)) committed
  -- and when it heard it, it had voted for the transaction
  obtain ⟨es₁, es₂, whole, unheard⟩ := verdict_split decided
  obtain ⟨as₁, mid, early, grown, late, rfl, stands, -⟩ := regular.split whole
  obtain ⟨t', logged', own, voted⟩ := early.voted (.inr stands)
  obtain rfl := regular.order_unique (OrchestratorChain.mem_orders_mono logged' grown) logged own
  have orders := regular.ordered_subset k
  rw [whole] at disciplined reached orders
  obtain ⟨m, before, after⟩ := run_append_eq_some.1 reached
  have second := run_rest (early.eventsRun k) before
  have yes : m.VotedYes t'.id := votedYes_mono second (voted k involved)
  obtain ⟨t₁, known, same, -⟩ := (bookkeeping_of_run disciplined.of_append before).voted _ (.inr yes)
  obtain rfl := regular.order_unique (orders t₁ (mem_ordered_append known _)) logged same
  have paid := paid_of_commit disciplined known before yes unheard after positive
  have drained : (net.shards k).node.outstanding = [] := settled.drained
  rw [whole]
  simpa only [ledger, drained, List.append_nil] using paid

theorem Regular.credited_of_settled (regular : Regular E numShards evm as net) {t : CrossShardTx}
    (member : t ∈ transfers net.service.chain) (involved : shardOf t.toAddr ∈ t.involvedShards)
    (settled : Settled net (shardOf t.toAddr)) : creditHalf.Made net t := by
  have disciplined := regular.disciplined (shardOf t.toAddr)
  have executed := (regular.executed_of_settled member involved settled).2 rfl
  have included := credit_included disciplined.commits (regular.eventsRun _) executed rfl
  rwa [included_node] at included

/-! ## All shards -/

/-- **Value is conserved.**  If recipients live on involved shards, and local transactions are plain
transfers that pass the check of a `Lock` when they execute, then once the involved shards are
settled every committed transfer has been debited, and the sum of all balances is the initial
one. -/
theorem value_conserved (plain : E.vm = transferVM) (regular : Regular E numShards evm as net)
    (K : Finset Int) (covered : ∀ t ∈ net.service.chain.orders, ∀ k ∈ t.involvedShards, k ∈ K)
    (settled : ∀ k ∈ K, Settled net k)
    (recipients : ∀ t ∈ net.service.chain.orders, shardOf t.toAddr ∈ t.involvedShards)
    (named : ∀ t ∈ net.service.chain.orders, t.id ≠ "")
    (bounded : ∀ k ∈ K, Along (Shard.step transferVM) NoOverflow (Node.start k (evm k))
      (eventsOf E (Cluster.start numShards evm) k as))
    (checked : ∀ k ∈ K, Along (Shard.step transferVM) LocalCovered (Node.start k (evm k))
      (eventsOf E (Cluster.start numShards evm) k as)) :
    (∀ t ∈ transfers net.service.chain, debitOf t ∈ executionOrder net t.fromShard) ∧
      ∑ k ∈ K, (net.shards k).evmState.total = ∑ k ∈ K, (evm k).total := by
  have credited : ∀ t ∈ transfers net.service.chain, creditHalf.Made net t := by
    intro t member
    have logged := (mem_transfers.1 member).1
    exact regular.credited_of_settled member (recipients t logged)
      (settled _ (covered t logged _ (recipients t logged)))
  have debited : ∀ t ∈ transfers net.service.chain, debitHalf.Made net t := by
    intro t member
    have involved : t.fromShard ∈ t.involvedShards := CrossShardTx.mem_involvedShards.2 (.inl rfl)
    have inside := covered t (mem_transfers.1 member).1 _ involved
    have executed := (regular.executed_of_settled member involved (settled _ inside)).1 rfl
    have included := debit_included (regular.disciplined _)
      (fun t' known => named t' (regular.ordered_subset _ t' known)) (bounded _ inside)
      (checked _ inside) (plain ▸ regular.eventsRun t.fromShard) executed rfl
    rwa [included_node] at included
  refine ⟨debited, ?_⟩
  rw [regular.sum_total_eq (plain ▸ conserving_transferVM) K covered,
    List.filter_eq_self.2 fun t member => decide_eq_true (credited t member),
    List.filter_eq_self.2 fun t member => decide_eq_true (debited t member), sub_self, add_zero]

end Runs

namespace TransferPole

def alice : Address := 0x100
def bob : Address := 0x200
def carol : Address := 0x301

def funded : Int → EVMState := fun k =>
  ⟨fun a => if k = 0 ∧ a = alice then 10 else 0, fun _ _ => 0, fun _ => []⟩

def engines : Engines where
  vm := transferVM
  simulateCall := fun _ _ _ _ _ _ => .error ""
  evmCall := fun _ _ _ _ _ => .done ⟨0, none⟩

def payCarol : CrossShardTx where
  id := "tx-1"
  fromShard := 0
  fromAddr := alice
  toAddr := carol
  value := some 4
  rwSet := [⟨carol, ⟨1⟩, [], []⟩]

def orderBlock : OrchestratorShardBlock := ⟨1, ∅, [payCarol]⟩
def commitBlock : OrchestratorShardBlock := ⟨2, (∅ : AList _).insert "tx-1" true, []⟩
def yes : AList fun _ : TxID => Bool := (∅ : AList _).insert "tx-1" true

/-- The transfer, after some requests to shard 0. -/
def transferring (requests : List Action) : List Action :=
  .submit "" payCarol :: .produce :: requests ++
    [.deliver 1 orderBlock, .deliver 0 orderBlock, .shardProduce 0 (some 0),
      .shardProduce 1 (some 0), .report 1 1 yes, .report 0 1 yes, .produce, .deliver 0 commitBlock,
      .deliver 1 commitBlock, .shardProduce 0 (some 0), .shardProduce 1 (some 0)]

/-- Alice sends everything to Bob on the same shard. -/
def payBob : Action := .request 0 "l-1" ⟨alice, bob, "10", [], 0⟩

def outcome (as : List Action) : Cluster :=
  (run (Cluster.step engines) (Cluster.start 2 funded) as).getD (Cluster.start 2 funded)

end TransferPole

open TransferPole in
/-- Without the local transfer, the four units change shards. -/
theorem transfer_conserved :
    ((outcome (transferring [])).shards 0).evmState.balance alice = 6 ∧
      ((outcome (transferring [])).shards 1).evmState.balance carol = 4 ∧
      (∀ t ∈ transfers (outcome (transferring [])).service.chain,
        debitOf t ∈ executionOrder (outcome (transferring [])) t.fromShard) ∧
      ∑ k ∈ {0, 1}, ((outcome (transferring [])).shards k).evmState.total =
        ∑ k ∈ {0, 1}, (funded k).total := by
  have regular : Regular engines 2 funded (transferring []) (outcome (transferring [])) :=
    ⟨rfl, by decide, by decide +kernel, by decide +kernel⟩
  have each : ∀ {P : Int → Prop}, P 0 → P 1 → ∀ k ∈ ({0, 1} : Finset Int), P k := by
    intro P first second k member
    rcases Finset.mem_insert.1 member with rfl | member
    · exact first
    · exact (Finset.mem_singleton.1 member) ▸ second
  refine ⟨by decide +kernel, by decide +kernel, ?_⟩
  exact value_conserved rfl regular {0, 1} (by decide +kernel)
    (each ⟨by decide +kernel, by decide +kernel⟩ ⟨by decide +kernel, by decide +kernel⟩)
    (by decide +kernel) (by decide +kernel) (each (by decide +kernel) (by decide +kernel))
    (each (by decide +kernel) (by decide +kernel))

end CrossShard.Network
