/-
# Orchestrator.Resubmission -- several transactions with one ID

`handleSubmit` and `handleCall` take over an ID that the client chose, and nothing checks
whether it was used before.  Ordering an ID again overwrites three of its four maps: the votes
cast on the earlier transaction stay.

* `Followed`: the invariant `Tracked` needs distinct IDs among all transactions added.  What
  is still pending cannot disturb it, so distinct IDs among the ordered ones suffice.
* `resubmission_harmless_iff`: in every run of the service, no ID is ordered or decided twice and
  no vote is counted for another ordering, at any moment, if and only if the transactions added
  before the last block have distinct IDs.
-/
import CrossShard.Library.Run
import CrossShard.Orchestrator.Lifecycle
import CrossShard.Orchestrator.Service

namespace CrossShard.Orchestrator

set_option autoImplicit false

open CrossShard.Library CrossShard.Protocol

/-! ## Requests to the service -/

/-- One request, one turn of the simulation worker, or one tick of the block producer. -/
inductive Request where
  | submit (uuid : TxID) (req : CrossShardTx)
  | call (uuid : TxID) (req : CrossShardTx)
  | simulate (W : World)
  | produce
  | report (shardID : Int) (tpcPrepare : AList fun _ : TxID => Bool)

namespace Service

def serve (call : EvmCall) (s : Service) : Request → Option Service
  | .submit uuid req => some (s.handleSubmit uuid req).2
  | .call uuid req => some (s.handleCall uuid req).2
  | .simulate W => s.simulateNext W call
  | .produce => some s.produceBlock.2
  | .report shardID tpcPrepare => some (s.handleStateShardBlock shardID tpcPrepare)

/-- The calls on the chain that a request leads to. -/
def calls (call : EvmCall) (s : Service) : Request → List Op
  | .submit uuid req =>
      match (s.handleSubmit uuid req).1 with
      | .submitted _ _ => [.addTransaction (accept uuid req)]
      | _ => []
  | .call _ _ => []
  | .simulate W =>
      match s.simulator.queue with
      | [] => []
      | tx :: _ => [.addTransaction (runSimulation (s.world W) call tx).1.tx]
  | .produce => [.produceBlock]
  | .report shardID tpcPrepare =>
      tpcPrepare.entries.map fun vote => .recordVote vote.1 shardID vote.2

/-- All calls on the chain in a run of the service. -/
def history (call : EvmCall) (s : Service) (rs : List Request) : List Op :=
  outputs (serve call) (calls call) s rs

theorem chain_handleSubmit (s : Service) (uuid : TxID) (req : CrossShardTx) (call : EvmCall) :
    (s.handleSubmit uuid req).2.chain = s.chain.after (s.calls call (.submit uuid req)) := by
  unfold calls handleSubmit
  dsimp only
  split
  · rfl
  · split
    · rfl
    · split <;> rfl

theorem chain_serve {call : EvmCall} {s s' : Service} {r : Request}
    (served : s.serve call r = some s') : s'.chain = s.chain.after (s.calls call r) := by
  cases r with
  | submit uuid req =>
      cases served
      exact s.chain_handleSubmit uuid req call
  | call uuid req =>
      cases served
      exact s.chain_handleCall uuid req
  | simulate W =>
      obtain ⟨tx, rest, queue, chain⟩ := chain_simulateNext served
      rw [chain, calls, queue]
      rfl
  | produce =>
      cases served
      exact s.chain_produceBlock
  | report shardID tpcPrepare =>
      cases served
      exact s.chain_handleStateShardBlock shardID tpcPrepare

/-- The chain of a service is the one its calls lead to. -/
theorem chain_run {call : EvmCall} {rs : List Request} {s s' : Service}
    (reached : run (serve call) s rs = some s') : s'.chain = s.chain.after (s.history call rs) :=
  run_project Service.chain OrchestratorChain.apply (fun _ _ _ served => chain_serve served) reached

end Service

/-! ## Distinct IDs among the ordered transactions suffice -/

def Note.isAdded : Note → Bool
  | .added _ => true
  | _ => false

/-- The journal without its notes of added transactions. -/
def withoutAdded (J : List Note) : List Note := J.filter fun note => !note.isAdded

@[simp] theorem withoutAdded_append (J K : List Note) :
    withoutAdded (J ++ K) = withoutAdded J ++ withoutAdded K := List.filter_append ..

theorem orderedIn_withoutAdded (J : List Note) : orderedIn (withoutAdded J) = orderedIn J := by
  unfold orderedIn withoutAdded
  rw [List.filterMap_filter]
  refine List.filterMap_congr fun note _ => ?_
  cases note <;> rfl

theorem withoutAdded_map_added (txs : List CrossShardTx) :
    withoutAdded (txs.map .added) = [] := by
  simp [withoutAdded, List.filter_map, Function.comp_def, Note.isAdded]

/-- The chain without its pending transactions is tracked, by a journal that tells the same of
everything but additions. -/
def Followed (J : List Note) (c : OrchestratorChain) : Prop :=
  ∃ K, Tracked K { c with pendingTxs := [] } ∧ withoutAdded K = withoutAdded J

theorem followed_start : Followed [] OrchestratorChain.newOrchestratorChain :=
  ⟨[], tracked_start, rfl⟩

section Step

variable {J K : List Note} {c c' : OrchestratorChain}

theorem orderedIn_of_same (same : withoutAdded K = withoutAdded J) : orderedIn K = orderedIn J := by
  rw [← orderedIn_withoutAdded, same, orderedIn_withoutAdded]

/-- With nothing pending, what was added is what was ordered. -/
theorem Tracked.added_eq_ordered (tracked : Tracked K { c with pendingTxs := [] })
    (same : withoutAdded K = withoutAdded J) : addedIn K = orderedIn J := by
  rw [← orderedIn_of_same same, ← tracked.order, List.append_nil]

theorem Tracked.queuedAll (txs : List CrossShardTx) :
    ∀ {K : List Note} {c : OrchestratorChain}, Tracked K c →
      Tracked (K ++ txs.map .added) { c with pendingTxs := c.pendingTxs ++ txs } := by
  induction txs with
  | nil =>
      intro K c tracked
      simpa using tracked
  | cons tx txs ih =>
      intro K c tracked
      have later := ih (tracked.queued tx)
      simpa [OrchestratorChain.addTransaction] using later

/-- A change that neither adds nor orders. -/
theorem Followed.other {notes : List Note} (followed : Followed J c)
    (distinct : ((orderedIn J).map CrossShardTx.id).Nodup)
    (move : Move { c with pendingTxs := [] } notes { c' with pendingTxs := [] }) :
    Followed (J ++ notes) c' := by
  obtain ⟨K, tracked, same⟩ := followed
  rw [← tracked.added_eq_ordered same] at distinct
  exact ⟨K ++ notes, tracked.move move distinct, by rw [withoutAdded_append, same,
    withoutAdded_append]⟩

/-- **A block** orders what was pending: now their IDs count. -/
theorem Followed.emitted (followed : Followed J c)
    (distinct : ((orderedIn (J ++ blockNotes c.emit.1)).map CrossShardTx.id).Nodup) :
    Followed (J ++ blockNotes c.emit.1) c.emit.2 := by
  obtain ⟨K, tracked, same⟩ := followed
  have ordered : orderedIn (J ++ blockNotes c.emit.1) = orderedIn J ++ c.pendingTxs := by
    rw [orderedIn_append, orderedIn_blockNotes]
    rfl
  have queued : Tracked (K ++ c.pendingTxs.map .added) c := tracked.queuedAll c.pendingTxs
  have all : addedIn (K ++ c.pendingTxs.map .added) = orderedIn J ++ c.pendingTxs := by
    rw [addedIn_append, tracked.added_eq_ordered same]
    simp [addedIn, List.filterMap_map]
  rw [ordered, ← all] at distinct
  refine ⟨_, queued.emitted distinct, ?_⟩
  rw [withoutAdded_append, withoutAdded_append, withoutAdded_append, withoutAdded_map_added,
    List.append_nil, same]

theorem Followed.move {notes : List Note} (followed : Followed J c) (move : Move c notes c')
    (distinct : ((orderedIn (J ++ notes)).map CrossShardTx.id).Nodup) :
    Followed (J ++ notes) c' := by
  have earlier : ((orderedIn J).map CrossShardTx.id).Nodup := by
    rw [orderedIn_append, List.map_append] at distinct
    exact (List.nodup_append.1 distinct).1
  cases move with
  | queued tx =>
      obtain ⟨K, tracked, same⟩ := followed
      refine ⟨K, tracked, ?_⟩
      rw [same, withoutAdded_append]
      exact (List.append_nil _).symm
  | retimed blocks => exact followed.other earlier (.retimed blocks)
  | cast txID shardID awaiting => exact followed.other earlier (.cast txID shardID awaiting)
  | refused txID shardID awaiting => exact followed.other earlier (.refused txID shardID awaiting)
  | agreed txID shardID awaiting all =>
      exact followed.other earlier (.agreed txID shardID awaiting all)
  | expired txID awaiting => exact followed.other earlier (.expired txID awaiting)
  | emitted => exact followed.emitted distinct

theorem Followed.moves {notes : List Note} (moves : Moves c notes c') (followed : Followed J c)
    (distinct : ((orderedIn (J ++ notes)).map CrossShardTx.id).Nodup) :
    Followed (J ++ notes) c' := by
  induction moves generalizing J with
  | refl c =>
      rw [List.append_nil]
      exact followed
  | cons first rest ih =>
      rw [← List.append_assoc] at distinct ⊢
      have earlier := distinct
      rw [orderedIn_append, List.map_append] at earlier
      exact ih (followed.move first (List.nodup_append.1 earlier).1) distinct

theorem Followed.after (followed : Followed J c) (ops : List Op)
    (distinct : ((orderedIn (J ++ c.journal ops)).map CrossShardTx.id).Nodup) :
    Followed (J ++ c.journal ops) (c.after ops) := by
  induction ops generalizing J c with
  | nil =>
      rw [OrchestratorChain.journal, List.append_nil]
      exact followed
  | cons op ops ih =>
      rw [OrchestratorChain.journal, ← List.append_assoc] at distinct ⊢
      have earlier := distinct
      rw [orderedIn_append, List.map_append] at earlier
      exact ih (followed.moves (c.moves_of_apply op) (List.nodup_append.1 earlier).1) distinct

end Step

/-! ## What resubmission must not do -/

/-- `J` is the journal that led to `c`. -/
structure Harmless (J : List Note) (c : OrchestratorChain) : Prop where
  /-- No ID is ordered twice. -/
  ordered : ((c.blocks.flatMap OrchestratorShardBlock.ctToOrder).map CrossShardTx.id).Nodup
  /-- No ID is decided twice. -/
  decided : (c.blocks.flatMap fun b => b.tpcResult.keys).Nodup
  /-- Every vote that counts was accepted after the last time its ID was ordered. -/
  counted : ∀ txID ∈ c.awaitingVotes, ∀ s v, (c.votesOn txID).get s = some v →
    ∃ before tx after, J = before ++ .ordered tx :: after ∧ tx.id = txID ∧
      (∀ later ∈ orderedIn after, later.id ≠ txID) ∧ .accepted txID s v ∈ after

/-- A cut of the journal without additions is one of the journal. -/
theorem exists_split_of_withoutAdded {J K before after : List Note} {tx : CrossShardTx}
    (same : withoutAdded K = withoutAdded J) (split : K = before ++ .ordered tx :: after) :
    ∃ before' after', J = before' ++ .ordered tx :: after' ∧
      withoutAdded after' = withoutAdded after := by
  rw [split, withoutAdded_append] at same
  obtain ⟨J₁, J₂, rfl, -, rest⟩ := List.filter_eq_append_iff.1 same.symm
  have cut : J₂.filter (fun note => !note.isAdded) = .ordered tx :: withoutAdded after := rest
  obtain ⟨skipped, after', rfl, -, -, tail⟩ := List.filter_eq_cons_iff.1 cut
  exact ⟨J₁ ++ skipped, after', by simp, tail⟩

theorem Followed.harmless {J : List Note} {c : OrchestratorChain} (followed : Followed J c)
    (distinct : ((orderedIn J).map CrossShardTx.id).Nodup) : Harmless J c := by
  obtain ⟨K, tracked, same⟩ := followed
  have ordered := orderedIn_of_same same
  refine ⟨?_, ?_, ?_⟩
  · have blocks : orderedIn K = c.blocks.flatMap OrchestratorShardBlock.ctToOrder := tracked.blocks
    rw [← blocks, ordered]
    exact distinct
  · have all := distinct
    rw [← tracked.added_eq_ordered same] at all
    exact (List.nodup_append.1 (tracked.placed.nodup_iff.1 all)).2.1
  · intro txID awaiting s v found
    obtain ⟨tx, waiting, -⟩ := tracked.ordered_of_awaiting awaiting
    obtain ⟨before, after, split, yes⟩ := waiting.yes
    obtain ⟨before', after', split', tail⟩ := exists_split_of_withoutAdded same split
    obtain ⟨rfl, accepted⟩ := yes s v found
    refine ⟨before', tx, after', split', waiting.same, ?_, ?_⟩
    · intro later member again
      rw [split', orderedIn_append, List.map_append] at distinct
      have rest : (tx.id :: (orderedIn after').map CrossShardTx.id).Nodup :=
        (List.nodup_append.1 distinct).2.1
      refine (List.nodup_cons.1 rest).1 ?_
      rw [waiting.same, ← again]
      exact List.mem_map_of_mem member
    · have kept : Note.accepted txID s true ∈ withoutAdded after' := by
        rw [tail]
        exact List.mem_filter.2 ⟨accepted, rfl⟩
      exact (List.mem_filter.1 kept).1

/-! ## The orders of a run -/

/-- The journal orders what was added before the last block. -/
theorem orderedIn_journal (ops : List Op) :
    orderedIn (OrchestratorChain.newOrchestratorChain.journal ops) = (batches ops).1.flatten := by
  have timeouts : ∀ txIDs : List TxID, orderedIn (txIDs.map .timedOut) = [] := by
    intro txIDs
    simp [orderedIn, List.filterMap_map]
  induction ops using List.reverseRecOn with
  | nil => rfl
  | append_singleton ops op ih =>
      have split : batches (ops ++ [op]) = batch (batches ops) op := by
        simp [batches, List.foldl_append]
      rw [OrchestratorChain.journal_append, orderedIn_append, ih, split]
      simp only [OrchestratorChain.journal, List.append_nil]
      cases op with
      | addTransaction tx => exact List.append_nil _
      | recordVote txID shardID canCommit =>
          simp only [OrchestratorChain.notes]
          split <;> exact List.append_nil _
      | checkTimeouts =>
          rw [OrchestratorChain.notes, timeouts]
          exact List.append_nil _
      | setVoteTimeout blocks => exact List.append_nil _
      | produceBlock =>
          have queue : (OrchestratorChain.newOrchestratorChain.after ops).produceBlock.1.ctToOrder =
              (batches ops).2 :=
            (OrchestratorChain.frame_checkTimeouts _).2.trans (batches_after ops).2
          rw [OrchestratorChain.notes, orderedIn_append, timeouts, orderedIn_blockNotes, queue]
          simp [batch]

theorem ordered_after (ops : List Op) :
    (OrchestratorChain.newOrchestratorChain.after ops).blocks.flatMap
      OrchestratorShardBlock.ctToOrder = (batches ops).1.flatten := by
  rw [List.flatMap_def, (batches_after ops).1]
  rfl

/-- In every run of the chain, at every moment. -/
theorem harmless_iff (ops : List Op) :
    (∀ pre post, ops = pre ++ post →
        Harmless (OrchestratorChain.newOrchestratorChain.journal pre)
          (OrchestratorChain.newOrchestratorChain.after pre)) ↔
      ((batches ops).1.flatten.map CrossShardTx.id).Nodup := by
  constructor
  · intro always
    have last := (always ops [] (List.append_nil ops).symm).ordered
    rwa [ordered_after] at last
  · rintro distinct pre post rfl
    rw [← orderedIn_journal, OrchestratorChain.journal_append, orderedIn_append,
      List.map_append] at distinct
    have earlier := (List.nodup_append.1 distinct).1
    exact (followed_start.after pre earlier).harmless earlier

namespace Service

/-- **Resubmission.**  In every run of the service, whatever IDs the clients choose: at every
moment each ID has been ordered and decided at most once and no vote counts for another
ordering of its ID, if and only if the transactions added before the last block have distinct
IDs. -/
theorem resubmission_harmless_iff (call : EvmCall) (numShards : Nat) (rs : List Request)
    (s : Service) (reached : run (serve call) (newService numShards) rs = some s) :
    s.chain = OrchestratorChain.newOrchestratorChain.after
        ((newService numShards).history call rs) ∧
      ((∀ pre post, (newService numShards).history call rs = pre ++ post →
          Harmless (OrchestratorChain.newOrchestratorChain.journal pre)
            (OrchestratorChain.newOrchestratorChain.after pre)) ↔
        ((batches ((newService numShards).history call rs)).1.flatten.map CrossShardTx.id).Nodup) :=
  ⟨chain_run reached, harmless_iff _⟩

end Service

namespace ResubmissionPole

open LifecyclePole

def votes (canCommit : Bool) : AList fun _ : TxID => Bool :=
  (∅ : AList _).insert "tx-1" canCommit

/-- A second payment with the same ID and another amount. -/
def otherPayment : CrossShardTx := { payment "tx-1" with value := some 7 }

/-- The ID is used again while its first transaction awaits votes. -/
def twice : List Request :=
  [.submit "" (payment "tx-1"), .produce, .report 0 (votes true),
    .submit "" otherPayment, .produce]

/-- Then shard 1 votes, the result is published, and the ID is used a third time. -/
def thrice : List Request :=
  twice ++ [.report 1 (votes true), .produce, .submit "" (payment "tx-1"), .produce,
    .report 1 (votes false), .produce]

def noCall : EvmCall := fun _ _ _ _ _ => .done ⟨0, none⟩

/-- Two payments with two IDs. -/
def onceEach : List Request :=
  [.submit "" (payment "tx-1"), .produce, .report 0 (votes true), .submit "" (payment "tx-2"),
    .produce, .report 1 (votes true), .produce]

end ResubmissionPole

open ResubmissionPole LifecyclePole in
/-- The ID is ordered twice and shard 0's vote on the first payment is kept for the second one,
which shard 1's vote alone then commits; used once more, the ID is decided a second time. -/
theorem reused_id_counts_old_vote :
    ((run (Service.serve noCall) (Service.newService 2) twice).map fun s =>
        (s.chain.awaitingVotes.lookup "tx-1", (s.chain.votesOn "tx-1").get 0)) =
      some (some otherPayment, some true) ∧
    OrchestratorChain.newOrchestratorChain.journal
        ((Service.newService 2).history noCall twice) =
      [.added (payment "tx-1"), .ordered (payment "tx-1"), .accepted "tx-1" 0 true,
        .added otherPayment, .ordered otherPayment] ∧
    ((run (Service.serve noCall) (Service.newService 2) thrice).map fun s =>
        s.chain.blocks.map fun b => (b.ctToOrder.map CrossShardTx.id, b.tpcResult.lookup "tx-1")) =
      some [([], none), (["tx-1"], none), (["tx-1"], none), ([], some true), (["tx-1"], none),
        ([], some false)] := by
  decide +kernel

open ResubmissionPole in
/-- With two IDs each payment is ordered once and each vote counts for its own. -/
theorem distinct_ids_are_harmless :
    ∃ s, run (Service.serve noCall) (Service.newService 2) onceEach = some s ∧
      Harmless (OrchestratorChain.newOrchestratorChain.journal
        ((Service.newService 2).history noCall onceEach)) s.chain := by
  refine ⟨_, rfl, ?_⟩
  obtain ⟨chain, harmless⟩ :=
    Service.resubmission_harmless_iff noCall 2 onceEach _ rfl
  rw [chain]
  exact harmless.2 (by decide +kernel) _ [] (List.append_nil _).symm

end CrossShard.Orchestrator
