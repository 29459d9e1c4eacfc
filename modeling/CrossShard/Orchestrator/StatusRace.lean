/-
# Orchestrator.StatusRace -- statuses written by concurrent goroutines

`handleStateShardBlock` records a vote under the chain's mutex and then marks the transaction
`prepared` under the service's; `blockProducer` produces a block and then marks the transactions
it decides.  Nothing keeps a whole block production from falling between the two steps of a
vote, and the late `prepared` then overwrites the final status.

An `Office` is the service together with the handlers at work and the results the producer has
still to write; `step` is one atomic step of one of them.

* `Sound`: a final status is the published result, and while no mark is late it is not
  touched any more.
* `arrivals`: the IDs under which transactions come in.  A submission without a value comes in
  too: it overwrites the pending map before its handler panics.
* `final_status_stands_iff`: in every run with distinct IDs that ends with all accepted votes
  marked, final statuses stand if and only if the producer never writes a result while a
  handler is about to mark the same transaction.
-/
import CrossShard.Orchestrator.Resubmission

namespace CrossShard.Orchestrator

set_option autoImplicit false

open CrossShard.Library CrossShard.Protocol

/-! ## The steps of the goroutines -/

/-- A request of `handleStateShardBlock`: the votes still to record, and the transaction whose
vote was accepted and that is not yet marked. -/
structure Handler where
  shardID : Int
  votes : List (Σ _ : TxID, Bool)
  accepted : Option TxID

/-- The service, the handlers, and the results that the block producer has still to write. -/
structure Office where
  service : Service
  handlers : List Handler
  results : List (Σ _ : TxID, Bool)

/-- `report` is a new handler, `record` and `prepare` the two steps of a vote, `produce` and
`publish` those of the block producer. -/
inductive Turn where
  | submit (uuid : TxID) (req : CrossShardTx)
  | call (uuid : TxID) (req : CrossShardTx)
  | simulate (W : World)
  | report (shardID : Int) (tpcPrepare : AList fun _ : TxID => Bool)
  | record (i : Nat)
  | prepare (i : Nat)
  | produce
  | publish

/-- The status of a decided transaction. -/
def finalStatus (commit : Bool) : TxStatus := if commit then .committed else .aborted

namespace Office

def start (numShards : Nat) : Office := ⟨Service.newService numShards, [], []⟩

def step (call : EvmCall) (o : Office) : Turn → Option Office
  | .submit uuid req => some { o with service := (o.service.handleSubmit uuid req).2 }
  | .call uuid req => some { o with service := (o.service.handleCall uuid req).2 }
  | .simulate W => (o.service.simulateNext W call).map fun service => { o with service := service }
  | .report shardID tpcPrepare =>
      some { o with handlers := o.handlers ++ [⟨shardID, tpcPrepare.entries, none⟩] }
  | .record i =>
      match o.handlers[i]? with
      | some ⟨shardID, vote :: votes, none⟩ =>
          let (accepted, chain) := o.service.chain.recordVote vote.1 shardID vote.2
          some { o with
            service := { o.service with chain := chain }
            handlers := o.handlers.set i
              ⟨shardID, votes, if accepted then some vote.1 else none⟩ }
      | _ => none
  | .prepare i =>
      match o.handlers[i]? with
      | some ⟨shardID, votes, some txID⟩ =>
          some { o with
            service := o.service.updateStatus txID .prepared
            handlers := o.handlers.set i ⟨shardID, votes, none⟩ }
      | _ => none
  | .produce =>
      match o.results with
      | [] =>
          let (block, chain) := o.service.chain.produceBlock
          some { o with
            service := { o.service with chain := chain }
            results := block.tpcResult.entries }
      | _ => none
  | .publish =>
      match o.results with
      | [] => none
      | r :: rest =>
          some { o with
            service := o.service.updateStatus r.1 (finalStatus r.2)
            results := rest }

/-- The calls on the chain that a turn makes. -/
def calls (call : EvmCall) (o : Office) : Turn → List Op
  | .submit uuid req => o.service.calls call (.submit uuid req)
  | .simulate W => o.service.calls call (.simulate W)
  | .record i =>
      match o.handlers[i]? with
      | some ⟨shardID, vote :: _, none⟩ => [.recordVote vote.1 shardID vote.2]
      | _ => []
  | .produce => [.produceBlock]
  | _ => []

def history (call : EvmCall) (o : Office) (turns : List Turn) : List Op :=
  outputs (step call) (calls call) o turns

/-- The ID under which a turn remembers a transaction or adds one to the chain. -/
def arrivals (call : EvmCall) (o : Office) : Turn → List TxID
  | .submit uuid req =>
      match (o.service.handleSubmit uuid req).1 with
      | .submitted _ _ | .panicked => [(Service.accept uuid req).id]
      | _ => []
  | .simulate W =>
      match o.service.simulator.queue with
      | [] => []
      | tx :: _ => [(runSimulation (o.service.world W) call tx).1.tx.id]
  | _ => []

/-- What is added to the chain has arrived. -/
theorem added_calls (call : EvmCall) (o : Office) (turn : Turn) :
    ((added (o.calls call turn)).map CrossShardTx.id).Sublist (o.arrivals call turn) := by
  cases turn with
  | submit uuid req =>
      simp only [calls, Service.calls, arrivals]
      cases (o.service.handleSubmit uuid req).1 with
      | submitted txID status => exact .refl _
      | _ => exact List.nil_sublist _
  | simulate W =>
      simp only [calls, Service.calls, arrivals]
      cases o.service.simulator.queue with
      | nil => exact .refl _
      | cons tx rest => exact .refl _
  | record i =>
      simp only [calls]
      split <;> exact List.nil_sublist _
  | _ => exact List.nil_sublist _

theorem added_history (call : EvmCall) (o : Office) (turns : List Turn) :
    ((added (o.history call turns)).map CrossShardTx.id).Sublist
      (outputs (step call) (arrivals call) o turns) := by
  induction turns generalizing o with
  | nil => exact .refl _
  | cons turn turns ih =>
      unfold history outputs
      rw [added, List.filterMap_append, List.map_append]
      refine (added_calls call o turn).append ?_
      cases o.step call turn with
      | none => exact .refl _
      | some o' => exact ih o'

theorem chain_step {call : EvmCall} {o o' : Office} {turn : Turn}
    (stepped : o.step call turn = some o') :
    o'.service.chain = o.service.chain.after (o.calls call turn) := by
  cases turn with
  | submit uuid req =>
      cases stepped
      exact o.service.chain_handleSubmit uuid req call
  | call uuid req =>
      cases stepped
      exact o.service.chain_handleCall uuid req
  | simulate W =>
      obtain ⟨service, ran, rfl⟩ := Option.map_eq_some_iff.1 stepped
      have served : o.service.serve call (.simulate W) = some service := ran
      exact Service.chain_serve served
  | report shardID tpcPrepare =>
      cases stepped
      rfl
  | record i =>
      simp only [step] at stepped
      split at stepped
      · rename_i shardID vote votes found
        cases stepped
        simp only [calls, found]
        rfl
      · cases stepped
  | prepare i =>
      simp only [step] at stepped
      split at stepped
      · cases stepped
        exact o.service.chain_updateStatus _ _
      · cases stepped
  | produce =>
      simp only [step] at stepped
      split at stepped
      · cases stepped
        rfl
      · cases stepped
  | publish =>
      simp only [step] at stepped
      split at stepped
      · cases stepped
      · cases stepped
        exact o.service.chain_updateStatus _ _

theorem chain_run {call : EvmCall} {turns : List Turn} {o o' : Office}
    (reached : run (step call) o turns = some o') :
    o'.service.chain = o.service.chain.after (o.history call turns) :=
  run_project (fun o => o.service.chain) OrchestratorChain.apply
    (fun _ _ _ stepped => chain_step stepped) reached

/-! ## Statuses -/

/-- What `handleStatus` reports. -/
def status (o : Office) (txID : TxID) : Option TxStatus :=
  (o.service.pending.get txID).map CrossShardTx.status

/-- The status is not a final one. -/
def Unsettled (o : Office) (txID : TxID) : Prop :=
  ∀ commit, o.status txID ≠ some (finalStatus commit)

end Office

namespace Service

theorem status_updateStatus (s : Service) (txID x : TxID) (status : TxStatus) :
    ((s.updateStatus txID status).pending.get x).map CrossShardTx.status =
      if x = txID then ((s.pending.get x).map fun _ => status)
      else (s.pending.get x).map CrossShardTx.status := by
  unfold updateStatus
  cases found : s.pending.get txID with
  | none =>
      by_cases own : x = txID
      · simp [own, found]
      · simp [own]
  | some tx =>
      by_cases own : x = txID
      · simp [own, found]
      · simp [own]

end Service

/-- Some block decides `txID` that way. -/
def Published (c : OrchestratorChain) (txID : TxID) (commit : Bool) : Prop :=
  ∃ block ∈ c.blocks, block.tpcResult.lookup txID = some commit

theorem mem_keys_of_published {c : OrchestratorChain} {txID : TxID} {commit : Bool}
    (published : Published c txID commit) :
    txID ∈ c.blocks.flatMap fun b => b.tpcResult.keys := by
  obtain ⟨block, listed, found⟩ := published
  refine List.mem_flatMap.2 ⟨block, listed, ?_⟩
  exact AList.mem_keys.1 (mem_of_lookup_eq_some found)

/-- A decided transaction awaits no votes. -/
theorem not_awaiting_of_published {c : OrchestratorChain} {txID : TxID} {commit : Bool}
    (placed : c.placedIDs.Nodup) (published : Published c txID commit) :
    txID ∉ c.awaitingVotes := by
  intro awaiting
  obtain ⟨-, -, apart⟩ := List.nodup_append.1 placed
  refine apart txID ?_ txID (mem_keys_of_published published) rfl
  exact List.mem_append_left _ (List.mem_append_right _ (AList.mem_keys.1 awaiting))

namespace Office

/-! ## What holds while no mark is late -/

structure Sound (o : Office) : Prop where
  queue : ∀ tx ∈ o.service.simulator.queue, tx.status = .pending
  /-- A final status is the published result. -/
  grounded : ∀ txID commit, o.status txID = some (finalStatus commit) →
    Published o.service.chain txID commit
  results : ∀ r ∈ o.results, Published o.service.chain r.1 r.2 ∧ o.Unsettled r.1
  distinct : (o.results.map Sigma.fst).Nodup
  accepted : ∀ h ∈ o.handlers, ∀ txID, h.accepted = some txID → o.Unsettled txID

theorem sound_start (numShards : Nat) : Sound (start numShards) where
  queue := List.forall_mem_nil _
  grounded := fun txID commit found => by
    simp [status, start, Service.newService] at found
  results := List.forall_mem_nil _
  distinct := List.nodup_nil
  accepted := List.forall_mem_nil _

section Step

variable {o o' : Office}

/-- Statuses only change from one that is not final to another that is not. -/
def Calm (o o' : Office) : Prop :=
  ∀ txID, o'.status txID = o.status txID ∨ o.Unsettled txID ∧ o'.Unsettled txID

theorem Calm.unsettled {txID : TxID} (calm : Calm o o') (before : o.Unsettled txID) :
    o'.Unsettled txID := by
  rcases calm txID with same | ⟨-, after⟩
  · intro commit
    rw [same]
    exact before commit
  · exact after

/-- A final status stands. -/
def Stands (o o' : Office) : Prop :=
  ∀ txID commit, o.status txID = some (finalStatus commit) →
    o'.status txID = some (finalStatus commit)

theorem Calm.stands (calm : Calm o o') : Stands o o' := by
  intro txID commit final
  rcases calm txID with same | ⟨unsettled, -⟩
  · rw [same, final]
  · exact absurd final (unsettled commit)

theorem calm_of_same (same : o'.service.pending = o.service.pending) : Calm o o' :=
  fun txID => .inl (by rw [status, same, status])

/-- A calm step keeps the invariant, given what it adds. -/
theorem Sound.calm (sound : Sound o) (calm : Calm o o')
    (queue : ∀ tx ∈ o'.service.simulator.queue, tx.status = .pending)
    (grows : ∀ txID commit, Published o.service.chain txID commit →
      Published o'.service.chain txID commit)
    (results : o'.results = o.results)
    (accepted : ∀ h ∈ o'.handlers, ∀ txID, h.accepted = some txID →
      o.Unsettled txID) : Sound o' where
  queue := queue
  grounded := fun txID commit final => by
    rcases calm txID with same | ⟨-, unsettled⟩
    · rw [same] at final
      exact grows txID commit (sound.grounded txID commit final)
    · exact absurd final (unsettled commit)
  results := fun r member => by
    rw [results] at member
    obtain ⟨published, unsettled⟩ := sound.results r member
    exact ⟨grows r.1 r.2 published, calm.unsettled unsettled⟩
  distinct := by
    rw [results]
    exact sound.distinct
  accepted := fun h member txID marked => calm.unsettled (accepted h member txID marked)

/-- What is placed nowhere has no final status. -/
theorem Sound.unsettled (sound : Sound o) {txID : TxID}
    (fresh : txID ∉ o.service.chain.placedIDs) : o.Unsettled txID := by
  intro commit final
  refine fresh (List.mem_append_right _ ?_)
  exact mem_keys_of_published (sound.grounded txID commit final)

/-- A transaction with a new ID is remembered as pending. -/
theorem Sound.remember (sound : Sound o) {tx : CrossShardTx} {service : Service}
    (waits : tx.status = .pending) (pending : service.pending = o.service.pending.set tx.id tx)
    (blocks : service.chain.blocks = o.service.chain.blocks)
    (queue : ∀ tx ∈ service.simulator.queue, tx.status = .pending)
    (fresh : tx.id ∉ o.service.chain.placedIDs) :
    Sound { o with service := service } ∧ Stands o { o with service := service } := by
  have calm : Calm o { o with service := service } := by
    intro txID
    by_cases own : txID = tx.id
    · refine .inr ⟨own ▸ sound.unsettled fresh, fun commit => ?_⟩
      simp only [status, pending, own, FMap.get_set, if_true, Option.map_some, waits]
      cases commit <;> decide
    · left
      simp [status, pending, own]
  refine ⟨sound.calm calm queue ?_ rfl sound.accepted, calm.stands⟩
  rintro txID commit ⟨block, listed, found⟩
  exact ⟨block, blocks ▸ listed, found⟩

theorem queue_handleCall {s : Service} (queue : ∀ tx ∈ s.simulator.queue, tx.status = .pending)
    (uuid : TxID) (req : CrossShardTx) :
    (s.handleCall uuid req).2.pending = s.pending ∧
      ∀ tx ∈ (s.handleCall uuid req).2.simulator.queue, tx.status = .pending := by
  unfold Service.handleCall Simulator.submit
  dsimp only
  split
  · exact ⟨rfl, queue⟩
  · by_cases closing : s.simulator.closing = true
    · rw [if_pos closing]
      exact ⟨rfl, queue⟩
    · rw [if_neg closing]
      split
      · rename_i refused
        split at refused
        · cases refused
        · cases refused
          exact ⟨rfl, queue⟩
      · rename_i taken
        split at taken
        · cases taken
          refine ⟨rfl, fun tx member => ?_⟩
          rcases List.mem_append.1 member with old | new
          · exact queue tx old
          · rw [List.mem_singleton.1 new]
            rfl
        · cases taken

theorem published_recordVote {c : OrchestratorChain} {txID : TxID} {shardID : Int}
    {canCommit : Bool} {x : TxID} {commit : Bool} (published : Published c x commit) :
    Published (c.recordVote txID shardID canCommit).2 x commit := by
  unfold Published
  rw [(c.frame_recordVote txID shardID canCommit).1]
  exact published

/-- An accepted vote is on a transaction that awaits votes. -/
theorem awaiting_of_accepted {c : OrchestratorChain} {txID : TxID} {shardID : Int}
    {canCommit : Bool} (accepted : (c.recordVote txID shardID canCommit).1 = true) :
    txID ∈ c.awaitingVotes := by
  rw [OrchestratorChain.recordVote_eq] at accepted
  split at accepted
  · cases accepted
  · rename_i taken
    exact not_not.1 (not_or.1 taken).1

theorem blocks_produceBlock (c : OrchestratorChain) :
    c.produceBlock.2.blocks = c.blocks ++ [c.produceBlock.1] := by
  show c.checkTimeouts.2.blocks ++ _ = _
  rw [c.frame_checkTimeouts.1]
  rfl

/-- The producer does not write a result while a handler is about to mark that transaction. -/
def Unraced (o : Office) : Turn → Prop
  | .publish => ∀ r ∈ o.results.head?, (o.service.pending.get r.1).isSome →
      ∀ h ∈ o.handlers, h.accepted ≠ some r.1
  | _ => True

instance (o : Office) : (turn : Turn) → Decidable (Unraced o turn)
  | .publish => inferInstanceAs (Decidable (∀ r ∈ o.results.head?, _ → ∀ h ∈ o.handlers, _))
  | .submit _ _ | .call _ _ | .simulate _ | .report _ _ | .record _ | .prepare _ | .produce =>
      .isTrue trivial

theorem Sound.record (sound : Sound o) {i : Nat} {shardID : Int} {vote : Σ _ : TxID, Bool}
    {votes : List (Σ _ : TxID, Bool)} (placed : o.service.chain.placedIDs.Nodup) :
    Sound { o with
      service := { o.service with chain := (o.service.chain.recordVote vote.1 shardID vote.2).2 }
      handlers := o.handlers.set i ⟨shardID, votes,
        if (o.service.chain.recordVote vote.1 shardID vote.2).1 then some vote.1 else none⟩ } := by
  refine sound.calm (calm_of_same rfl) sound.queue
    (fun txID commit published => published_recordVote published) rfl ?_
  intro h member txID marked
  rcases List.mem_or_eq_of_mem_set member with old | rfl
  · exact sound.accepted h old txID marked
  · intro commit final
    dsimp only at marked
    split at marked
    · rename_i accepted
      cases marked
      exact not_awaiting_of_published placed (sound.grounded _ commit final)
        (awaiting_of_accepted accepted)
    · cases marked

theorem Sound.prepare (sound : Sound o) {i : Nat} {shardID : Int} {txID : TxID}
    {votes : List (Σ _ : TxID, Bool)} (found : o.handlers[i]? = some ⟨shardID, votes, some txID⟩) :
    Sound { o with
        service := o.service.updateStatus txID .prepared
        handlers := o.handlers.set i ⟨shardID, votes, none⟩ } ∧
      Stands o { o with
        service := o.service.updateStatus txID .prepared
        handlers := o.handlers.set i ⟨shardID, votes, none⟩ } := by
  have unsettled := sound.accepted _ (List.mem_of_getElem? found) txID rfl
  have calm : Calm o { o with
      service := o.service.updateStatus txID .prepared
      handlers := o.handlers.set i ⟨shardID, votes, none⟩ } := by
    intro x
    by_cases own : x = txID
    · refine .inr ⟨own ▸ unsettled, fun commit => ?_⟩
      rw [status, Service.status_updateStatus, if_pos own]
      cases o.service.pending.get x <;> cases commit <;> simp [finalStatus]
    · left
      rw [status, Service.status_updateStatus, if_neg own]
      rfl
  have chain := o.service.chain_updateStatus txID .prepared
  refine ⟨sound.calm calm ?_ ?_ rfl ?_, calm.stands⟩
  · unfold Service.updateStatus
    split <;> exact sound.queue
  · intro x commit published
    show Published (o.service.updateStatus txID .prepared).chain x commit
    rw [chain]
    exact published
  · intro h member x marked
    rcases List.mem_or_eq_of_mem_set member with old | rfl
    · exact sound.accepted h old x marked
    · cases marked

theorem Sound.produce (sound : Sound o)
    (placed : o.service.chain.produceBlock.2.placedIDs.Nodup) :
    Sound { o with
      service := { o.service with chain := o.service.chain.produceBlock.2 }
      results := o.service.chain.produceBlock.1.tpcResult.entries } where
  queue := sound.queue
  grounded := fun txID commit final => by
    obtain ⟨block, listed, found⟩ := sound.grounded txID commit final
    refine ⟨block, ?_, found⟩
    show block ∈ o.service.chain.produceBlock.2.blocks
    rw [blocks_produceBlock]
    exact List.mem_append_left _ listed
  results := fun r member => by
    have found : o.service.chain.produceBlock.1.tpcResult.lookup r.1 = some r.2 :=
      AList.mem_lookup_iff.2 member
    refine ⟨⟨_, ?_, found⟩, fun commit final => ?_⟩
    · show _ ∈ o.service.chain.produceBlock.2.blocks
      rw [blocks_produceBlock]
      exact List.mem_append_right _ List.mem_cons_self
    · -- decided before, it would be decided twice
      have before := mem_keys_of_published (sound.grounded r.1 commit final)
      have twice := (List.nodup_append.1 placed).2.1
      rw [blocks_produceBlock, List.flatMap_append] at twice
      refine (List.nodup_append.1 twice).2.2 r.1 before r.1 ?_ rfl
      simp only [List.flatMap_cons, List.flatMap_nil, List.append_nil]
      exact AList.mem_keys.1 (mem_of_lookup_eq_some found)
  distinct := o.service.chain.produceBlock.1.tpcResult.nodupKeys
  accepted := sound.accepted

theorem Sound.publish (sound : Sound o) {r : Σ _ : TxID, Bool} {rest : List (Σ _ : TxID, Bool)}
    (next : o.results = r :: rest) (unraced : Unraced o .publish) :
    Sound { o with
        service := o.service.updateStatus r.1 (finalStatus r.2)
        results := rest } ∧
      Stands o { o with
        service := o.service.updateStatus r.1 (finalStatus r.2)
        results := rest } := by
  have chain := o.service.chain_updateStatus r.1 (finalStatus r.2)
  obtain ⟨published, unsettled⟩ := sound.results r (by rw [next]; exact List.mem_cons_self)
  have others : ∀ x, x ≠ r.1 → status { o with
      service := o.service.updateStatus r.1 (finalStatus r.2)
      results := rest } x = o.status x := by
    intro x other
    rw [status, Service.status_updateStatus, if_neg other]
    rfl
  have distinct := sound.distinct
  rw [next] at distinct
  obtain ⟨once, distinct'⟩ := List.nodup_cons.1 distinct
  refine ⟨⟨?_, ?_, ?_, distinct', ?_⟩, ?_⟩
  · unfold Service.updateStatus
    split <;> exact sound.queue
  · intro x commit final
    show Published (o.service.updateStatus r.1 (finalStatus r.2)).chain x commit
    rw [chain]
    by_cases own : x = r.1
    · rw [status, Service.status_updateStatus, if_pos own] at final
      have same : finalStatus r.2 = finalStatus commit := by
        cases found : o.service.pending.get x with
        | none => simp [found] at final
        | some tx => simpa [found] using final
      have same : r.2 = commit := by
        revert same
        cases r.2 <;> cases commit <;> decide
      rw [own, ← same]
      exact published
    · rw [others x own] at final
      exact sound.grounded x commit final
  · intro q member
    obtain ⟨published', unsettled'⟩ := sound.results q (by
      rw [next]
      exact List.mem_cons_of_mem _ member)
    have other : q.1 ≠ r.1 := fun same => once (by rw [← same]; exact List.mem_map_of_mem member)
    refine ⟨?_, fun commit => ?_⟩
    · show Published (o.service.updateStatus r.1 (finalStatus r.2)).chain q.1 q.2
      rw [chain]
      exact published'
    · rw [others q.1 other]
      exact unsettled' commit
  · intro h member x marked commit
    by_cases own : x = r.1
    · rw [status, Service.status_updateStatus, if_pos own]
      cases found : o.service.pending.get x with
      | none => simp
      | some tx =>
          refine absurd marked ?_
          rw [own] at found ⊢
          exact unraced r (by rw [next]; rfl) (by rw [found]; rfl) h member
    · rw [others x own]
      exact sound.accepted h member x marked commit
  · intro x commit final
    by_cases own : x = r.1
    · exact absurd final (own ▸ unsettled commit)
    · rw [others x own]
      exact final

theorem Sound.submit (sound : Sound o) {call : EvmCall} (uuid : TxID) (req : CrossShardTx)
    (fresh : ∀ txID ∈ o.arrivals call (.submit uuid req), txID ∉ o.service.chain.placedIDs) :
    Sound { o with service := (o.service.handleSubmit uuid req).2 } ∧
      Stands o { o with service := (o.service.handleSubmit uuid req).2 } := by
  rcases o.service.handleSubmit_cases uuid req with same | ⟨-, panics | queued⟩
  · rw [same]
    exact ⟨sound, fun _ _ final => final⟩
  · simp only [arrivals, panics, List.forall_mem_singleton] at fresh
    rw [panics]
    exact sound.remember rfl rfl rfl sound.queue fresh
  · simp only [arrivals, queued, List.forall_mem_singleton] at fresh
    rw [queued]
    exact sound.remember rfl rfl rfl sound.queue fresh

theorem Sound.simulate (sound : Sound o) {call : EvmCall} {W : World} {service : Service}
    (ran : o.service.simulateNext W call = some service)
    (fresh : ∀ txID ∈ o.arrivals call (.simulate W), txID ∉ o.service.chain.placedIDs) :
    Sound { o with service := service } ∧ Stands o { o with service := service } := by
  obtain ⟨tx, rest, queue, left, chain, pending⟩ := Service.simulateNext_cases ran
  have waiting : tx.status = .pending := sound.queue tx (by rw [queue]; exact List.mem_cons_self)
  have others : ∀ tx ∈ service.simulator.queue, tx.status = .pending := by
    rw [left]
    intro t member
    exact sound.queue t (by rw [queue]; exact List.mem_cons_of_mem _ member)
  have blocks : service.chain.blocks = o.service.chain.blocks := by
    rw [chain]
    rfl
  rcases pending with same | ⟨simulated, remembered⟩
  · refine ⟨sound.calm (calm_of_same same) others ?_ rfl sound.accepted, (calm_of_same same).stands⟩
    rintro x commit ⟨block, listed, found⟩
    exact ⟨block, blocks ▸ listed, found⟩
  · simp only [arrivals, queue, List.forall_mem_singleton] at fresh
    have id : (runSimulation (o.service.world W) call tx).1.tx.id = tx.id := by
      rw [simulated]
      rfl
    rw [← id] at remembered
    refine sound.remember ?_ remembered blocks others fresh
    rw [simulated]
    exact waiting

/-- **One turn** of any goroutine. -/
theorem Sound.step {call : EvmCall} {turn : Turn} (sound : Sound o)
    (placed : o.service.chain.placedIDs.Nodup) (placed' : o'.service.chain.placedIDs.Nodup)
    (fresh : ∀ txID ∈ o.arrivals call turn, txID ∉ o.service.chain.placedIDs)
    (unraced : Unraced o turn) (stepped : o.step call turn = some o') :
    Sound o' ∧ Stands o o' := by
  cases turn with
  | submit uuid req =>
      cases stepped
      exact sound.submit uuid req fresh
  | call uuid req =>
      cases stepped
      obtain ⟨same, queue⟩ := queue_handleCall sound.queue uuid req
      refine ⟨sound.calm (calm_of_same same) queue ?_ rfl sound.accepted,
        (calm_of_same same).stands⟩
      intro x commit published
      show Published (o.service.handleCall uuid req).2.chain x commit
      rw [o.service.chain_handleCall uuid req]
      exact published
  | simulate W =>
      obtain ⟨service, ran, rfl⟩ := Option.map_eq_some_iff.1 stepped
      exact sound.simulate ran fresh
  | report shardID tpcPrepare =>
      cases stepped
      refine ⟨sound.calm (calm_of_same rfl) sound.queue (fun _ _ published => published) rfl ?_,
        (calm_of_same rfl).stands⟩
      intro h member x marked
      rcases List.mem_append.1 member with old | new
      · exact sound.accepted h old x marked
      · rw [List.mem_singleton.1 new] at marked
        cases marked
  | record i =>
      simp only [Office.step] at stepped
      split at stepped
      · cases stepped
        exact ⟨sound.record placed, (calm_of_same rfl).stands⟩
      · cases stepped
  | prepare i =>
      simp only [Office.step] at stepped
      split at stepped
      · rename_i found
        cases stepped
        exact sound.prepare found
      · cases stepped
  | produce =>
      simp only [Office.step] at stepped
      split at stepped
      · cases stepped
        exact ⟨sound.produce placed', (calm_of_same rfl).stands⟩
      · cases stepped
  | publish =>
      simp only [Office.step] at stepped
      split at stepped
      · cases stepped
      · rename_i next
        cases stepped
        exact sound.publish next unraced

end Step

/-! ## Whole runs -/

section Run

variable {call : EvmCall} {numShards : Nat}

/-- With distinct IDs every ID is in one place, in every state of the run, and has arrived. -/
theorem placed_of_run {turns : List Turn} {o : Office}
    (distinct : (outputs (step call) (arrivals call) (start numShards) turns).Nodup)
    (reached : run (step call) (start numShards) turns = some o) :
    o.service.chain.placedIDs.Nodup ∧
      o.service.chain.placedIDs ⊆ outputs (step call) (arrivals call) (start numShards) turns := by
  have arrived := added_history call (start numShards) turns
  have added := distinct.sublist arrived
  rw [← addedIn_journal OrchestratorChain.newOrchestratorChain] at added arrived
  have placed := (tracked_start.after _ added).placed
  rw [chain_run reached]
  exact ⟨placed.nodup_iff.1 added, fun txID member => arrived.subset (placed.mem_iff.2 member)⟩

/-- The facts that one turn of a run with distinct IDs needs. -/
theorem fresh_of_run {turns : List Turn} {turn : Turn} {m o : Office}
    (distinct : (outputs (step call) (arrivals call) (start numShards) (turns ++ [turn])).Nodup)
    (before : run (step call) (start numShards) turns = some m)
    (stepped : m.step call turn = some o) :
    (outputs (step call) (arrivals call) (start numShards) turns).Nodup ∧
      ∀ txID ∈ m.arrivals call turn, txID ∉ m.service.chain.placedIDs := by
  rw [outputs_append _ before, outputs_cons _ stepped] at distinct
  obtain ⟨earlier, -, apart⟩ := List.nodup_append.1 distinct
  refine ⟨earlier, fun txID arrives placed => ?_⟩
  exact apart txID ((placed_of_run earlier before).2 placed) txID
    (List.mem_append_left _ arrives) rfl

/-- While no mark is late, every state of the run is sound. -/
theorem sound_of_run {turns : List Turn} :
    ∀ {o : Office}, (outputs (step call) (arrivals call) (start numShards) turns).Nodup →
      Along (step call) Unraced (start numShards) turns →
      run (step call) (start numShards) turns = some o → Sound o := by
  induction turns using List.reverseRecOn with
  | nil =>
      intro o _ _ reached
      cases reached
      exact sound_start numShards
  | append_singleton turns turn ih =>
      intro o distinct unraced reached
      obtain ⟨m, before, stepped⟩ := run_concat_eq_some.1 reached
      obtain ⟨earlier, fresh⟩ := fresh_of_run distinct before stepped
      exact ((ih earlier unraced.of_append before).step (placed_of_run earlier before).1
        (placed_of_run distinct reached).1 fresh (unraced.last before) stepped).1

/-- The turn lets final statuses stand. -/
def Steady (call : EvmCall) (o : Office) (turn : Turn) : Prop :=
  ∀ o', o.step call turn = some o' → Stands o o'

/-- A mark waits until its handler makes it. -/
theorem mark_waits {o o' : Office} {turn : Turn} {i : Nat} {h : Handler} {txID : TxID}
    (found : o.handlers[i]? = some h) (marked : h.accepted = some txID)
    (stepped : o.step call turn = some o') :
    turn = .prepare i ∨ o'.handlers[i]? = some h := by
  cases turn with
  | submit uuid req =>
      cases stepped
      exact .inr found
  | call uuid req =>
      cases stepped
      exact .inr found
  | simulate W =>
      obtain ⟨service, -, rfl⟩ := Option.map_eq_some_iff.1 stepped
      exact .inr found
  | report shardID tpcPrepare =>
      cases stepped
      right
      rw [List.getElem?_append_left (List.getElem?_eq_some_iff.1 found).1]
      exact found
  | record j =>
      simp only [step] at stepped
      split at stepped
      · rename_i taken
        cases stepped
        by_cases own : j = i
        · rw [own, found] at taken
          cases taken
          cases marked
        · right
          rw [List.getElem?_set_ne own]
          exact found
      · cases stepped
  | prepare j =>
      simp only [step] at stepped
      split at stepped
      · cases stepped
        by_cases own : j = i
        · exact .inl (by rw [own])
        · right
          rw [List.getElem?_set_ne own]
          exact found
      · cases stepped
  | produce =>
      simp only [step] at stepped
      split at stepped
      · cases stepped
        exact .inr found
      · cases stepped
  | publish =>
      simp only [step] at stepped
      split at stepped
      · cases stepped
      · cases stepped
        exact .inr found

/-- A mark that waits when the status is final will overwrite it. -/
theorem late_mark_overwrites {turns : List Turn} {i : Nat} {h : Handler} {txID : TxID}
    {commit : Bool} (marked : h.accepted = some txID) :
    ∀ {o o' : Office}, o.handlers[i]? = some h → o.status txID = some (finalStatus commit) →
      run (step call) o turns = some o' → (∀ h ∈ o'.handlers, h.accepted = none) →
      ¬Along (step call) (Steady call) o turns := by
  induction turns with
  | nil =>
      intro o o' found _ reached done _
      cases reached
      rw [done h (List.mem_of_getElem? found)] at marked
      cases marked
  | cons turn turns ih =>
      intro o o' found final reached done steady
      obtain ⟨m, stepped, rest⟩ := run_cons_eq_some.1 reached
      obtain ⟨here, later⟩ := (along_cons_iff stepped).1 steady
      have stands := here m stepped txID commit final
      rcases mark_waits found marked stepped with rfl | waits
      · obtain ⟨shardID, votes, accepted⟩ := h
        cases marked
        simp only [step, found, Option.some.injEq] at stepped
        rw [← stepped, status, Service.status_updateStatus, if_pos rfl] at stands
        cases pending : o.service.pending.get txID with
        | none => simp [pending] at stands
        | some tx =>
            rw [pending] at stands
            cases commit <;> simp [finalStatus] at stands
      · exact ih waits stands rest done later

end Run

/-- **Final statuses.**  In every run in which transactions come in under distinct IDs, whatever the
interleaving, that ends with no accepted vote left to mark: a final status never changes and is the
published result, in every state of the run, if and only if the producer never writes a result while
a handler is about to mark the same transaction. -/
theorem final_status_stands_iff (call : EvmCall) (numShards : Nat) (turns : List Turn) (o : Office)
    (reached : run (step call) (start numShards) turns = some o)
    (distinct : (outputs (step call) (arrivals call) (start numShards) turns).Nodup)
    (done : ∀ h ∈ o.handlers, h.accepted = none) :
    (Along (step call) (Steady call) (start numShards) turns ∧
      ∀ pre post m, turns = pre ++ post → run (step call) (start numShards) pre = some m →
        ∀ txID commit, m.status txID = some (finalStatus commit) →
          Published m.service.chain txID commit) ↔
      Along (step call) Unraced (start numShards) turns := by
  constructor
  · rintro ⟨steady, -⟩
    rw [along_iff]
    rintro pre turn post m rfl before
    obtain ⟨t, stepped, rest⟩ := run_cons_eq_some.1 (run_rest before reached)
    cases turn with
    | publish =>
        intro r next known h member marked
        obtain ⟨i, found⟩ := List.getElem?_of_mem member
        cases results : m.results with
        | nil => simp [results] at next
        | cons r' others =>
            rw [results] at next
            cases next
            have later := (along_cons_iff stepped).1 (steady.of_run before)
            simp only [step, results, Option.some.injEq] at stepped
            have waits : t.handlers[i]? = some h := by
              rw [← stepped]
              exact found
            have final : t.status r.1 = some (finalStatus r.2) := by
              rw [← stepped, status, Service.status_updateStatus, if_pos rfl]
              obtain ⟨tx, pending⟩ := Option.isSome_iff_exists.1 known
              rw [pending]
              rfl
            exact late_mark_overwrites marked waits final rest done later.2
    | _ => trivial
  · intro unraced
    have prefixes : ∀ pre post m, turns = pre ++ post →
        run (step call) (start numShards) pre = some m →
        (outputs (step call) (arrivals call) (start numShards) pre).Nodup ∧ Sound m := by
      rintro pre post m rfl before
      have all := distinct
      rw [outputs_append _ before] at all
      have earlier := (List.nodup_append.1 all).1
      exact ⟨earlier, sound_of_run earlier unraced.of_append before⟩
    refine ⟨along_iff.2 ?_, fun pre post m split before => (prefixes pre post m split before).2.grounded⟩
    intro pre turn post m split before m' stepped
    obtain ⟨earlier, sound⟩ := prefixes pre (turn :: post) m split before
    have split' : turns = (pre ++ [turn]) ++ post := by rw [split, List.append_assoc]; rfl
    have now : run (step call) (start numShards) (pre ++ [turn]) = some m' :=
      run_concat_eq_some.2 ⟨m, before, stepped⟩
    obtain ⟨distinct', -⟩ := prefixes (pre ++ [turn]) post m' split' now
    have fresh := (fresh_of_run distinct' before stepped).2
    exact (sound.step (placed_of_run earlier before).1 (placed_of_run distinct' now).1 fresh
      (along_iff.1 unraced pre turn post m split before) stepped).2

end Office

namespace StatusRacePole

open LifecyclePole

def noCall : EvmCall := fun _ _ _ _ _ => .done ⟨0, none⟩

def yes : AList fun _ : TxID => Bool := (∅ : AList _).insert "tx-1" true

/-- A payment is ordered; shard 0's vote is recorded and marked; shard 1's vote is recorded. -/
def voted : List Turn :=
  [.submit "" (payment "tx-1"), .produce, .report 0 yes, .record 0, .prepare 0, .report 1 yes,
    .record 1]

/-- The producer decides and writes the result before the second handler makes its mark. -/
def overtaken : List Turn := voted ++ [.produce, .publish]

def inTurn : List Turn := voted ++ [.prepare 1, .produce, .publish]

end StatusRacePole

open StatusRacePole Office in
/-- The committed transaction is reported as prepared, for ever. -/
theorem late_mark_hides_commit :
    ((run (step noCall) (start 2) overtaken).map fun o => o.status "tx-1") =
        some (some .committed) ∧
      ((run (step noCall) (start 2) (overtaken ++ [.prepare 1])).map fun o =>
          (o.status "tx-1", o.service.chain.blocks.map fun b => b.tpcResult.lookup "tx-1",
            o.handlers.map Handler.accepted)) =
        some (some .prepared, [none, none, some true], [none, none]) := by
  decide +kernel

open StatusRacePole Office in
/-- With the mark made first, the final status stands. -/
theorem mark_in_turn_stands : ∃ o, run (step noCall) (start 2) inTurn = some o ∧
    o.status "tx-1" = some .committed ∧ Published o.service.chain "tx-1" true := by
  obtain ⟨o, reached, final, done⟩ : ∃ o, run (step noCall) (start 2) inTurn = some o ∧
      o.status "tx-1" = some .committed ∧ ∀ h ∈ o.handlers, h.accepted = none :=
    ⟨_, rfl, by decide +kernel, by decide +kernel⟩
  have unraced : Along (step noCall) Unraced (start 2) inTurn := by decide +kernel
  obtain ⟨-, grounded⟩ :=
    (final_status_stands_iff noCall 2 inTurn o reached (by decide +kernel) done).2 unraced
  exact ⟨o, reached, final,
    grounded inTurn [] o (List.append_nil _).symm reached "tx-1" true final⟩

end CrossShard.Orchestrator
