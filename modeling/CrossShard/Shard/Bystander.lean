/-
# Shard.Bystander -- a shard acts for a transaction only if a block names it

Suppose no block that a shard takes in orders or decides the transaction `x`.  Then, whatever
else is delivered, submitted and produced, nothing is recorded, queued or executed for `x`
(`Untouched`).  No discipline of IDs and no success of commits is assumed.

The server level (`Server.Untouched`) adds that no buffered block names `x` either, so that the
fact survives deliveries in any order, duplicates, failed commits and crash recovery.
-/
import CrossShard.Shard.Intake

namespace CrossShard.Shard

set_option autoImplicit false

open CrossShard.Library CrossShard.Protocol
open Chain (crossTx lockTx TxView)

/-- `tx` does no cross-shard work for `x`. -/
def Foreign (x : TxID) (tx : Transaction) : Prop := tx.crossShardTxID = x → tx.txType = .localTx

/-- The block neither decides nor orders `x`. -/
def Silent (x : TxID) (block : OrchestratorShardBlock) : Prop :=
  x ∉ block.tpcResult ∧ ∀ tx ∈ block.ctToOrder, tx.id ≠ x

/-- The event neither decides nor orders `x`. -/
def Event.Spares (x : TxID) : Event → Prop
  | .decision y _ => y ≠ x
  | .order tx => tx.id ≠ x
  | _ => True

/-- Nothing in the tables. -/
def blankView : TxView := ⟨none, fun _ => [], none, none, none, ∅⟩

/-- Nothing is recorded, queued, waiting or executed for `x`. -/
structure Untouched (x : TxID) (n : Node) : Prop where
  view : n.chain.view x = blankView
  queue : ∀ tx ∈ n.chain.currentTxs, Foreign x tx
  waiting : ∀ tx ∈ n.outstanding, Foreign x tx
  included : ∀ tx ∈ n.included, Foreign x tx

theorem untouched_start (x : TxID) (shardID : Int) (evm : EVMState) :
    Untouched x (Node.start shardID evm) where
  view := by
    have noSlot : {key : SlotKey | (Chain.newChain shardID).slotHolder key.addr key.slot = some x} = ∅ :=
      Set.eq_empty_iff_forall_notMem.2 fun key held => by cases held
    simp only [Node.start, Chain.view, noSlot]
    rfl
  queue := List.forall_mem_nil _
  waiting := List.forall_mem_nil _
  included := List.forall_mem_nil _

/-- Everything a decision queues carries its ID. -/
theorem id_of_mem_decisionTxs {c : Chain} {txID : TxID} {committed : Bool} {tx : Transaction}
    (member : tx ∈ c.decisionTxs txID committed) : tx.crossShardTxID = txID := by
  rcases mem_decisionTxs member with ⟨-, effect⟩ | ⟨-, rfl⟩ | rfl
  · rcases mem_commitTxs.1 effect with ⟨lock, -, rfl⟩ | ⟨credits, -, credit, -, rfl⟩ |
      ⟨call, -, -, rfl⟩ | ⟨rwSet, -, -, rfl⟩ <;> rfl
  · rfl
  · rfl

section Step

variable {vm : VM} {x : TxID} {e : Event} {n n' : Node}

theorem Taken.added_foreign (taken : Taken vm n e n') (spares : e.Spares x) :
    ∀ tx ∈ added n e, Foreign x tx := by
  intro tx member
  cases taken with
  | decided y committed idle fresh =>
      simp only [added, fresh, Bool.false_eq_true, if_false] at member
      exact fun own => absurd ((id_of_mem_decisionTxs member).symm.trans own) spares
  | ordered t idle involved =>
      simp only [added, involved, if_true, List.mem_singleton] at member
      rw [member]
      exact fun own => absurd own spares
  | submitted t idle kind unnamed =>
      rw [List.mem_singleton.1 member]
      exact fun _ => kind
  | stale y committed idle processed => simp [added, processed] at member
  | passed t idle foreign => simp [added, foreign] at member
  | _ => cases member

/-- What is included after an event was included before or was waiting. -/
theorem Taken.mem_included (taken : Taken vm n e n') {tx : Transaction}
    (member : tx ∈ n'.included) : tx ∈ n.included ∨ tx ∈ n.outstanding := by
  have executed : ∀ {chain : Chain} {evm : EVMState} {t : Transaction} {rest successful},
      n.work = some ⟨t :: rest, successful⟩ → chain.steady = n.chain.steady →
      tx ∈ Node.included ⟨chain, evm, some ⟨rest, successful ++ [t]⟩⟩ →
        tx ∈ n.included ∨ tx ∈ n.outstanding := by
    intro chain evm t rest successful busy steady member
    have blocks : chain.blocks = n.chain.blocks := congrArg Chain.Steady.blocks steady
    simp only [Node.included, blocks, Option.map_some, Option.getD_some, List.mem_append,
      List.mem_singleton] at member
    rcases member with old | old | rfl
    · exact .inl (List.mem_append_left _ old)
    · refine .inl (List.mem_append_right _ ?_)
      rw [busy]
      exact old
    · refine .inr ?_
      rw [Node.outstanding_of_busy busy]
      exact List.mem_cons_self
  cases taken with
  | granted t rest successful busy kind chain lock => exact executed busy lock.steady member
  | applied t rest successful busy kind free evm ran =>
      exact executed busy (n.chain.steady_cleanupAfterExecution t) member
  | refused t rest successful busy kind chain lock result =>
      have blocks : chain.blocks = n.chain.blocks := congrArg Chain.Steady.blocks lock.steady
      left
      simpa [Node.included, busy, blocks] using member
  | ordered t idle involved =>
      have blocks : (n.chain.noteOrder t).blocks = n.chain.blocks :=
        congrArg Chain.Steady.blocks (n.chain.steady_noteOrder t)
      left
      simpa [Node.included, Chain.addTx, idle, blocks] using member
  | committed stateRoot successful busy =>
      left
      simpa [Node.included, BlockState.finish, busy] using member
  | failed successful busy =>
      left
      simp only [Node.included, Option.map_none, Option.getD_none, List.append_nil] at member
      exact List.mem_append_left _ member
  | begun idle =>
      left
      simpa [Node.included, idle] using member
  | skipped t rest successful busy reason =>
      left
      simpa [Node.included, busy] using member
  | _ => exact .inl member

theorem cleanupAfterExecution_of_local (c : Chain) {tx : Transaction}
    (kind : tx.txType = .localTx) : c.cleanupAfterExecution tx = c := by
  unfold Chain.cleanupAfterExecution
  simp only [kind]
  split <;> rfl

theorem Untouched.view_step (inv : Untouched x n) (taken : Taken vm n e n')
    (spares : e.Spares x) : n'.chain.view x = n.chain.view x := by
  have other : ∀ {tx : Transaction}, tx ∈ n.outstanding → tx.txType ≠ .localTx →
      x ≠ tx.crossShardTxID :=
    fun {tx} waits kind own => kind (inv.waiting tx waits own.symm)
  have waits : ∀ {tx : Transaction} {rest successful}, n.work = some ⟨tx :: rest, successful⟩ →
      tx ∈ n.outstanding := by
    intro tx rest successful busy
    rw [Node.outstanding_of_busy busy]
    exact List.mem_cons_self
  cases taken with
  | ordered tx idle involved => exact Chain.view_noteOrder_of_ne (Ne.symm spares)
  | granted tx rest successful busy kind chain lock =>
      exact lock.view_of_ne (other (waits busy) (by simp [kind]))
  | refused tx rest successful busy kind chain lock result =>
      exact lock.others x (other (waits busy) (by simp [kind]))
  | applied tx rest successful busy kind free evm ran =>
      by_cases isLocal : tx.txType = .localTx
      · exact congrArg (Chain.view · x) (cleanupAfterExecution_of_local n.chain isLocal)
      · exact Chain.view_cleanupAfterExecution_of_ne (other (waits busy) isLocal)
  | _ => rfl

/-- **One event.** -/
theorem Untouched.step (inv : Untouched x n) (taken : Taken vm n e n') (spares : e.Spares x) :
    Untouched x n' where
  view := (inv.view_step taken spares).trans inv.view
  queue tx member :=
    (taken.mem_currentTxs member).elim (inv.queue tx) (taken.added_foreign spares tx)
  waiting tx member := by
    by_cases failed : e = .commitError
    · subst failed
      cases taken
      exact inv.queue tx member
    · exact (taken.mem_outstanding failed member).elim (inv.waiting tx)
        (taken.added_foreign spares tx)
  included tx member := (taken.mem_included member).elim (inv.included tx) (inv.waiting tx)

/-- **Every run.** -/
theorem Untouched.run {es : List Event} (inv : Untouched x n) (spares : ∀ e ∈ es, e.Spares x)
    (reached : Library.run (Shard.step vm) n es = some n') : Untouched x n' := by
  refine run_preserves (Untouched x) ?_ inv spares reached
  exact fun _ _ _ inv spares stepped => inv.step (taken_of_step stepped) spares

end Step

/-! ## Servers -/

/-- Between two calls nothing is produced. -/
def Server.node (s : Server) : Node := ⟨s.chain, s.evmState, none⟩

structure Server.Untouched (x : TxID) (s : Server) : Prop where
  node : Shard.Untouched x s.node
  buffered : s.blockBuffer.All (Silent x)

theorem Untouched.processBlock {x : TxID} {c : Chain} {evm : EVMState}
    (inv : Untouched x ⟨c, evm, none⟩) {block : OrchestratorShardBlock} (silent : Silent x block) :
    Untouched x ⟨c.processOrchestratorBlock block, evm, none⟩ := by
  -- any virtual machine will do: no event of a block executes anything
  have ran := processOrchestratorBlock_run ⟨fun e _ _ _ _ _ => .ok e⟩ c evm block
  refine inv.run (fun e member => ?_) ran
  unfold blockEvents at member
  split at member
  · cases member
  · simp only [List.mem_append, List.mem_map, List.mem_singleton] at member
    rcases member with (⟨r, listed, rfl⟩ | ⟨tx, listed, rfl⟩) | rfl
    · rintro rfl
      exact silent.1 (AList.mem_keys.2 (List.mem_map_of_mem listed))
    · exact silent.2 tx listed
    · trivial

theorem Untouched.processBlocks {x : TxID} {c : Chain} {evm : EVMState}
    {blocks : List OrchestratorShardBlock} (inv : Untouched x ⟨c, evm, none⟩)
    (silent : ∀ block ∈ blocks, Silent x block) :
    Untouched x ⟨blocks.foldl Chain.processOrchestratorBlock c, evm, none⟩ := by
  induction blocks generalizing c with
  | nil => exact inv
  | cons block blocks ih =>
      exact ih (inv.processBlock (silent block List.mem_cons_self))
        fun block' later => silent block' (List.mem_cons_of_mem _ later)

namespace Server

variable {x : TxID} {s : Server}

theorem untouched_fresh (x : TxID) (shardID : Int) (evm : EVMState) :
    (fresh shardID evm).Untouched x :=
  ⟨untouched_start x shardID evm, fun _ _ found => by
    rw [show (fresh shardID evm).blockBuffer.buffered = ∅ from rfl, FMap.get_empty] at found
    cases found⟩

theorem Untouched.deliver (inv : s.Untouched x) {block : OrchestratorShardBlock}
    (silent : Silent x block) : (s.handleOrchestratorShardBlock block).2.Untouched x := by
  obtain ⟨released, left⟩ := inv.buffered.processBlock silent
  rw [handleOrchestratorShardBlock_eq]
  exact ⟨inv.node.processBlocks released, left⟩

theorem Untouched.submit (inv : s.Untouched x) (simulate : SimulateCall) (txID : TxID)
    (req : TxSubmitRequest) : (s.handleTxSubmit simulate txID req).2.Untouched x := by
  rcases handleTxSubmit_cases simulate s txID req with same | ⟨tx, kind, unnamed, queued⟩
  · rw [same]
    exact inv
  · rw [queued]
    have taken : Taken ⟨fun e _ _ _ _ _ => .ok e⟩ s.node (.submit tx)
        { s.node with chain := s.chain.addTx tx } := .submitted tx rfl kind unnamed
    exact ⟨inv.node.step taken trivial, inv.buffered⟩

/-- Block production, with a commit that succeeds or fails. -/
theorem Untouched.produce (inv : s.Untouched x) {vm : VM} {commit : Option Hash} {p : Produced}
    (produced : s.chain.produceBlock vm s.evmState commit = some p) :
    Untouched x { s with chain := p.chain, evmState := p.evm } := by
  have ran := produceBlock_run vm s.chain s.evmState commit
  rw [produced] at ran
  refine ⟨inv.node.run (fun e member => ?_) ran, inv.buffered⟩
  simp only [produceEvents, List.mem_append, List.mem_cons, List.mem_map, List.not_mem_nil,
    or_false] at member
  rcases member with (rfl | ⟨tx, -, rfl⟩) | rfl
  · trivial
  · trivial
  · cases commit <;> trivial

theorem Untouched.replay (fetch : Nat → Fetched) (silent : ∀ height block,
    fetch height = .block block → Silent x block) (turns : Nat) :
    ∀ (height : Nat) (s : Server), s.Untouched x → (replay fetch turns height s).Untouched x := by
  induction turns with
  | zero => exact fun height s inv => inv
  | succ turns ih =>
      intro height s inv
      unfold Server.replay
      apply ih
      split
      · rename_i block found
        exact ⟨inv.node.processBlock (silent height block found), inv.buffered⟩
      · exact inv

/-- A restarted server, whatever part of the log it could fetch. -/
theorem untouched_newServer (x : TxID) (shardID : Int) (evm : EVMState) (view : OrchestratorView)
    (silent : ∀ height block, view.fetch height = .block block → Silent x block) :
    (newServer shardID evm view).Untouched x := by
  unfold newServer recoverFromOrchestrator
  split
  · exact untouched_fresh x shardID evm
  · dsimp only
    split
    · exact untouched_fresh x shardID evm
    · exact Untouched.replay view.fetch silent _ _ _ (untouched_fresh x shardID evm)

end Server

end CrossShard.Shard
