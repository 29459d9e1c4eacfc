/-
# Orchestrator.Outsiders -- votes of shards that a transaction does not involve

`RecordVote` asks whether the transaction awaits votes and whether the shard has voted already.  It
does not ask whether the shard is one of the expected voters.  So the first vote of an uninvolved
shard is accepted, and its NO aborts.  Its YES is stored and changes no decision, because the
decision to commit looks at the expected voters only.

* `recordVote_rejected_iff`: which votes are rejected.
* `Alike`: two tables of votes that the expected voters have filled in the same way.
* `Alike.step`: one operation of both runs.
* `outsiders_tolerated`: runs with and without the votes of uninvolved shards.
* `outsider_aborts`: the NO of a shard that has no part in a payment.
-/
import CrossShard.Library.Run
import CrossShard.Orchestrator.Lifecycle

namespace CrossShard.Orchestrator

set_option autoImplicit false

open CrossShard.Library CrossShard.Protocol

namespace OrchestratorChain

/-- The shard has no part in the transaction that awaits votes under this ID. -/
def Outsider (c : OrchestratorChain) (txID : TxID) (shardID : Int) : Prop :=
  ∀ tx, c.awaitingVotes.lookup txID = some tx → shardID ∉ tx.involvedShards

instance (c : OrchestratorChain) (txID : TxID) (shardID : Int) :
    Decidable (c.Outsider txID shardID) :=
  decidable_of_iff (∀ tx ∈ c.awaitingVotes.lookup txID, shardID ∉ tx.involvedShards) Iff.rfl

/-- A vote is rejected, and then changes nothing, exactly if nobody waits for it or the shard has
voted already: the expected voters play no part. -/
theorem recordVote_rejected_iff (c : OrchestratorChain) (txID : TxID) (shardID : Int)
    (canCommit : Bool) :
    c.recordVote txID shardID canCommit = (false, c) ↔
      txID ∉ c.awaitingVotes ∨ ((c.votesOn txID).get shardID).isSome := by
  rw [recordVote_eq]
  split
  · rename_i rejected
    exact iff_of_true rfl rejected
  · rename_i taken
    refine iff_of_false (fun same => ?_) taken
    have accepted := congrArg Prod.fst same
    split at accepted
    · cases accepted
    · split at accepted <;> cases accepted

def withVotes (c : OrchestratorChain) (votes : FMap TxID (FMap Int Bool)) : OrchestratorChain :=
  { c with votes := votes }

/-- The count and the loop of `RecordVote` come to: every other expected voter has voted. -/
theorem complete_iff_involved {c : OrchestratorChain} {txID : TxID} {shardID : Int}
    {tx : CrossShardTx} (expected : c.expectedVoters.get txID = some tx.involvedShards) :
    c.Complete txID shardID ↔
      ∀ s ∈ tx.involvedShards, s = shardID ∨ ((c.votesOn txID).get s).isSome := by
  have voted : ∀ s, ((((c.votesOn txID).set shardID true).get s).isSome ↔
      s = shardID ∨ ((c.votesOn txID).get s).isSome) := by
    intro s
    rw [FMap.get_set]
    split <;> simp_all
  unfold Complete
  rw [expected]
  constructor
  · rintro ⟨-, all⟩ s voter
    exact (voted s).1 (all s voter)
  · intro all
    refine ⟨FMap.length_le_len tx.nodup_involvedShards fun s voter => ?_, fun s voter => ?_⟩
    · exact Option.isSome_iff_ne_none.1 ((voted s).2 (all s voter))
    · exact (voted s).2 (all s voter)

/-! ## Two tables of votes -/

/-- The involved shards have voted alike in `c` and in `votes`, and nowhere all of them have. -/
structure Alike (c : OrchestratorChain) (votes : FMap TxID (FMap Int Bool)) : Prop where
  involved : ∀ txID tx, c.awaitingVotes.lookup txID = some tx → ∀ s ∈ tx.involvedShards,
    ((c.withVotes votes).votesOn txID).get s = (c.votesOn txID).get s
  missing : ∀ txID tx, c.awaitingVotes.lookup txID = some tx →
    ∃ s ∈ tx.involvedShards, (c.votesOn txID).get s = none
  idle : ∀ txID, txID ∉ c.awaitingVotes → votes.get txID = none

section Step

variable {J : List Note} {c : OrchestratorChain} {votes : FMap TxID (FMap Int Bool)}

theorem Alike.settle (alike : Alike c votes) (txID : TxID) (commit : Bool) :
    Alike (c.settle txID commit) (votes.delete txID) := by
  have other : ∀ x tx, (c.settle txID commit).awaitingVotes.lookup x = some tx →
      x ≠ txID ∧ c.awaitingVotes.lookup x = some tx := by
    intro x tx found
    rw [show (c.settle txID commit).awaitingVotes = c.awaitingVotes.erase txID from rfl,
      lookup_erase_ite] at found
    split at found
    · cases found
    · rename_i different
      exact ⟨different, found⟩
  refine ⟨fun x tx found => ?_, fun x tx found => ?_, fun x gone => ?_⟩
  · obtain ⟨different, before⟩ := other x tx found
    have same := alike.involved x tx before
    simpa [votesOn, withVotes, OrchestratorChain.settle, different] using same
  · obtain ⟨different, before⟩ := other x tx found
    have same := alike.missing x tx before
    simpa [votesOn, OrchestratorChain.settle, different] using same
  · rw [FMap.get_delete]
    split
    · rfl
    · rename_i different
      exact alike.idle x fun member => gone (mem_awaiting_settle.2 ⟨different, member⟩)

/-- The YES of an uninvolved shard is at most added to the table, where no decision looks. -/
theorem recordVote_outsider {d : OrchestratorChain} {txID : TxID} {s : Int} {tx : CrossShardTx}
    (found : d.awaitingVotes.lookup txID = some tx)
    (expected : d.expectedVoters.get txID = some tx.involvedShards) (outside : s ∉ tx.involvedShards)
    (missing : ∃ r ∈ tx.involvedShards, (d.votesOn txID).get r = none) :
    ∃ votes, (d.recordVote txID s true).2 = d.withVotes votes ∧
      (∀ x tx', d.awaitingVotes.lookup x = some tx' → ∀ r ∈ tx'.involvedShards,
        ((d.withVotes votes).votesOn x).get r = (d.votesOn x).get r) ∧
      ∀ x, x ∉ d.awaitingVotes → votes.get x = d.votes.get x := by
  rw [recordVote_eq]
  split
  · exact ⟨d.votes, rfl, fun _ _ _ _ _ => rfl, fun _ _ => rfl⟩
  · have incomplete : ¬d.Complete txID s := by
      obtain ⟨r, voter, open_vote⟩ := missing
      rw [complete_iff_involved expected]
      intro all
      rcases all r voter with rfl | voted
      · exact outside voter
      · rw [open_vote] at voted
        cases voted
    rw [if_neg (show ¬true = false by rintro ⟨⟩), if_neg incomplete]
    refine ⟨d.votes.set txID ((d.votesOn txID).set s true), rfl, fun x tx' found' r voter => ?_,
      fun x gone => ?_⟩
    · by_cases own : x = txID
      · subst own
        rw [found] at found'
        cases found'
        have different : r ≠ s := fun same => outside (same ▸ voter)
        simp [votesOn, withVotes, different]
      · simp [votesOn, withVotes, own]
    · rw [FMap.get_set, if_neg]
      rintro rfl
      exact gone (mem_of_lookup_eq_some found)

/-- **An inserted YES.** -/
theorem Alike.outsider_vote (alike : Alike c votes) (tracked : Tracked J c) {txID : TxID} {s : Int}
    {tx : CrossShardTx} (found : c.awaitingVotes.lookup txID = some tx)
    (outside : s ∉ tx.involvedShards) :
    ∃ votes', ((c.withVotes votes).recordVote txID s true).2 = c.withVotes votes' ∧
      Alike c votes' := by
  have missing : ∃ r ∈ tx.involvedShards, ((c.withVotes votes).votesOn txID).get r = none := by
    obtain ⟨r, voter, open_vote⟩ := alike.missing txID tx found
    exact ⟨r, voter, (alike.involved txID tx found r voter).trans open_vote⟩
  obtain ⟨votes', result, kept, idle⟩ := recordVote_outsider (d := c.withVotes votes) found
    (tracked.waiting txID tx found).expected outside missing
  refine ⟨votes', result, fun x tx' found' r voter => ?_, alike.missing, fun x gone => ?_⟩
  · exact (kept x tx' found' r voter).trans (alike.involved x tx' found' r voter)
  · exact (idle x gone).trans (alike.idle x gone)

/-- A YES of an uninvolved shard that both runs contain. -/
theorem Alike.outsider_votes (alike : Alike c votes) (tracked : Tracked J c) {txID : TxID}
    {s : Int} {tx : CrossShardTx} (found : c.awaitingVotes.lookup txID = some tx)
    (outside : s ∉ tx.involvedShards) :
    ∃ votes', ((c.withVotes votes).recordVote txID s true).2 =
        (c.recordVote txID s true).2.withVotes votes' ∧
      Alike (c.recordVote txID s true).2 votes' := by
  obtain ⟨votes', result', alike'⟩ := alike.outsider_vote tracked found outside
  obtain ⟨mine, result, kept, -⟩ := recordVote_outsider found
    (tracked.waiting txID tx found).expected outside (alike.missing txID tx found)
  rw [result, result']
  refine ⟨votes', rfl, fun x tx' found' r voter => ?_, fun x tx' found' => ?_, alike'.idle⟩
  · exact (alike'.involved x tx' found' r voter).trans (kept x tx' found' r voter).symm
  · obtain ⟨r, voter, open_vote⟩ := alike.missing x tx' found'
    exact ⟨r, voter, (kept x tx' found' r voter).trans open_vote⟩

/-- **The vote of an involved shard** meets the same checks in both runs. -/
theorem Alike.involved_votes (alike : Alike c votes) (tracked : Tracked J c) {txID : TxID}
    {s : Int} {tx : CrossShardTx} (found : c.awaitingVotes.lookup txID = some tx)
    (inside : s ∈ tx.involvedShards) (canCommit : Bool) :
    ∃ votes', ((c.withVotes votes).recordVote txID s canCommit).2 =
        (c.recordVote txID s canCommit).2.withVotes votes' ∧
      Alike (c.recordVote txID s canCommit).2 votes' := by
  have expected := (tracked.waiting txID tx found).expected
  have same := alike.involved txID tx found
  have complete : (c.withVotes votes).Complete txID s ↔ c.Complete txID s := by
    rw [complete_iff_involved expected, complete_iff_involved (c := c.withVotes votes) expected]
    exact forall₂_congr fun r voter => by rw [same r voter]
  have ignored : (txID ∉ (c.withVotes votes).awaitingVotes ∨
        (((c.withVotes votes).votesOn txID).get s).isSome) ↔
      (txID ∉ c.awaitingVotes ∨ ((c.votesOn txID).get s).isSome) := by
    rw [same s inside]
    rfl
  simp only [recordVote_eq, ignored, complete]
  split
  · exact ⟨votes, rfl, alike⟩
  · split
    · exact ⟨votes.delete txID, rfl, alike.settle txID false⟩
    · split
      · exact ⟨votes.delete txID, rfl, alike.settle txID true⟩
      · rename_i incomplete
        refine ⟨votes.set txID (((c.withVotes votes).votesOn txID).set s true), rfl,
          fun x tx' found' r voter => ?_, fun x tx' found' => ?_, fun x gone => ?_⟩
        · have before := alike.involved x tx' found' r voter
          by_cases own : x = txID
          · subst own
            by_cases mine : r = s
            · simp [votesOn, withVotes, mine]
            · simpa [votesOn, withVotes, mine] using before
          · simpa [votesOn, withVotes, own] using before
        · by_cases own : x = txID
          · subst own
            rw [found] at found'
            cases found'
            rw [complete_iff_involved expected] at incomplete
            push Not at incomplete
            obtain ⟨r, voter, other, unvoted⟩ := incomplete
            refine ⟨r, voter, ?_⟩
            simpa [votesOn, other] using unvoted
          · simpa [votesOn, own] using alike.missing x tx' found'
        · rw [FMap.get_set, if_neg]
          · exact alike.idle x gone
          · rintro rfl
            exact gone (mem_of_lookup_eq_some found)

theorem Alike.recordVote (alike : Alike c votes) (tracked : Tracked J c) (txID : TxID) (s : Int)
    (canCommit : Bool)
    (harmless : txID ∈ c.awaitingVotes → c.Outsider txID s → canCommit = true) :
    ∃ votes', ((c.withVotes votes).recordVote txID s canCommit).2 =
        (c.recordVote txID s canCommit).2.withVotes votes' ∧
      Alike (c.recordVote txID s canCommit).2 votes' := by
  cases found : c.awaitingVotes.lookup txID with
  | none =>
      have gone : txID ∉ c.awaitingVotes := AList.lookup_eq_none.1 found
      refine ⟨votes, ?_⟩
      rw [(c.recordVote_rejected_iff txID s canCommit).2 (Or.inl gone),
        ((c.withVotes votes).recordVote_rejected_iff txID s canCommit).2 (Or.inl gone)]
      exact ⟨rfl, alike⟩
  | some tx =>
      by_cases inside : s ∈ tx.involvedShards
      · exact alike.involved_votes tracked found inside canCommit
      · have outsider : c.Outsider txID s := by
          intro tx' found'
          rw [found] at found'
          cases found'
          exact inside
        have yes := harmless (mem_of_lookup_eq_some found) outsider
        rw [yes]
        exact alike.outsider_votes tracked found inside

/-! ### Timeouts and blocks -/

theorem Alike.expire (alike : Alike c votes) (txIDs : List TxID) :
    ∃ votes', txIDs.foldl (fun c txID => c.settle txID false) (c.withVotes votes) =
        (txIDs.foldl (fun c txID => c.settle txID false) c).withVotes votes' ∧
      Alike (txIDs.foldl (fun c txID => c.settle txID false) c) votes' := by
  induction txIDs generalizing c votes with
  | nil => exact ⟨votes, rfl, alike⟩
  | cons txID txIDs ih => exact ih (alike.settle txID false)

theorem Alike.checkTimeouts (alike : Alike c votes) :
    ∃ votes', (c.withVotes votes).checkTimeouts.2 = c.checkTimeouts.2.withVotes votes' ∧
      Alike c.checkTimeouts.2 votes' :=
  alike.expire (c.awaitingVotes.keys.filter c.expired)

theorem foldl_await_withVotes (newHeight : Nat) (c : OrchestratorChain)
    (votes : FMap TxID (FMap Int Bool)) (txs : List CrossShardTx) :
    txs.foldl (await newHeight) (c.withVotes votes) =
      (txs.foldl (await newHeight) c).withVotes votes := by
  induction txs generalizing c with
  | nil => rfl
  | cons tx txs ih => exact ih (await newHeight c tx)

theorem emit_withVotes (c : OrchestratorChain) (votes : FMap TxID (FMap Int Bool)) :
    (c.withVotes votes).emit.2 = c.emit.2.withVotes votes := by
  simp only [emit, withVotes]
  rw [show c.pendingTxs.foldl (await ((c.height + 1) % 2 ^ 64)) { c with votes := votes } = _ from
    foldl_await_withVotes _ c votes c.pendingTxs]
  rfl

/-- What a block orders has no votes yet. -/
theorem Alike.emit (alike : Alike c votes) (tracked : Tracked J c)
    (distinct : ((addedIn J).map CrossShardTx.id).Nodup) : Alike c.emit.2 votes := by
  have loop := awaited_foldl ((c.height + 1) % 2 ^ 64) c c.pendingTxs
  have lookup : ∀ x, c.emit.2.awaitingVotes.lookup x =
      (lastWith x c.pendingTxs).or (c.awaitingVotes.lookup x) := loop.awaiting
  have mine : ∀ x, c.emit.2.votesOn x = c.votesOn x := by
    intro x
    have same : c.emit.2.votes = c.votes := loop.votes
    rw [votesOn, same, votesOn]
  have fresh : ∀ x tx, lastWith x c.pendingTxs = some tx →
      c.votes.get x = none ∧ votes.get x = none := by
    intro x tx found
    obtain ⟨pending, rfl⟩ := lastWith_eq_some found
    refine ⟨(tracked.pending_unheard distinct pending).2, alike.idle _ fun awaiting => ?_⟩
    exact (tracked.only_awaiting distinct awaiting).1 (List.mem_map_of_mem pending)
  refine ⟨fun x tx found r voter => ?_, fun x tx found => ?_, fun x gone => ?_⟩
  · rw [mine]
    rw [lookup] at found
    cases new : lastWith x c.pendingTxs with
    | none =>
        rw [new] at found
        exact alike.involved x tx found r voter
    | some tx' =>
        obtain ⟨none_mine, none_theirs⟩ := fresh x tx' new
        simp [votesOn, withVotes, none_mine, none_theirs]
  · rw [mine]
    rw [lookup] at found
    cases new : lastWith x c.pendingTxs with
    | none =>
        rw [new] at found
        exact alike.missing x tx found
    | some tx' =>
        have source : tx.fromShard ∈ tx.involvedShards := CrossShardTx.mem_involvedShards.2 (.inl rfl)
        exact ⟨tx.fromShard, source, by simp [votesOn, (fresh x tx' new).1]⟩
  · refine alike.idle x fun awaiting => gone (AList.lookup_isSome.1 ?_)
    rw [lookup]
    have present := AList.lookup_isSome.2 awaiting
    cases lastWith x c.pendingTxs with
    | none => exact present
    | some tx => rfl

/-! ## Runs -/

/-- A vote on an awaiting transaction by a shard that it does not involve is YES. -/
def Harmless (c : OrchestratorChain) : Op → Prop
  | .recordVote txID shardID canCommit =>
      txID ∈ c.awaitingVotes → c.Outsider txID shardID → canCommit = true
  | _ => True

instance (c : OrchestratorChain) : (op : Op) → Decidable (c.Harmless op)
  | .recordVote txID shardID canCommit => inferInstanceAs (Decidable
      (txID ∈ c.awaitingVotes → c.Outsider txID shardID → canCommit = true))
  | .addTransaction _ => inferInstanceAs (Decidable True)
  | .checkTimeouts => inferInstanceAs (Decidable True)
  | .setVoteTimeout _ => inferInstanceAs (Decidable True)
  | .produceBlock => inferInstanceAs (Decidable True)

/-- **One operation of both runs.** -/
theorem Alike.step (alike : Alike c votes) (tracked : Tracked J c) (op : Op)
    (distinct : ((addedIn (J ++ c.notes op)).map CrossShardTx.id).Nodup)
    (harmless : c.Harmless op) :
    ∃ votes', (c.withVotes votes).apply op = (c.apply op).withVotes votes' ∧
      Alike (c.apply op) votes' := by
  cases op with
  | addTransaction tx => exact ⟨votes, rfl, alike.involved, alike.missing, alike.idle⟩
  | recordVote txID s canCommit => exact alike.recordVote tracked txID s canCommit harmless
  | checkTimeouts => exact alike.checkTimeouts
  | setVoteTimeout blocks => exact ⟨votes, rfl, alike.involved, alike.missing, alike.idle⟩
  | produceBlock =>
      obtain ⟨votes', result, alike'⟩ := alike.checkTimeouts
      rw [OrchestratorChain.notes, ← List.append_assoc] at distinct
      have distinct' := nodup_addedIn_left distinct
      refine ⟨votes', ?_, alike'.emit (tracked.moves c.moves_checkTimeouts distinct') distinct'⟩
      show (c.withVotes votes).checkTimeouts.2.emit.2 = c.checkTimeouts.2.emit.2.withVotes votes'
      rw [result, emit_withVotes]

end Step

/-- The second list is the first one with votes inserted, each by a shard that the transaction which
awaits votes at that moment does not involve. -/
inductive Inserted : OrchestratorChain → List Op → List Op → Prop
  | nil (c : OrchestratorChain) : Inserted c [] []
  | same {c : OrchestratorChain} {op : Op} {ops ops' : List Op}
      (rest : Inserted (c.apply op) ops ops') : Inserted c (op :: ops) (op :: ops')
  | vote {c : OrchestratorChain} {txID : TxID} {shardID : Int} {canCommit : Bool}
      {ops ops' : List Op} (outsider : c.Outsider txID shardID)
      (rest : Inserted (c.apply (.recordVote txID shardID canCommit)) ops ops') :
      Inserted c ops (.recordVote txID shardID canCommit :: ops')

def advance (c : OrchestratorChain) (op : Op) : Option OrchestratorChain := some (c.apply op)

/-- **Both runs stay alike**, up to the table of votes. -/
theorem alike_after {c' : OrchestratorChain} {ops ops' : List Op} (inserted : Inserted c' ops ops') :
    ∀ {J : List Note} {c : OrchestratorChain} {votes : FMap TxID (FMap Int Bool)},
      c' = c.withVotes votes → Alike c votes → Tracked J c →
      ((addedIn (J ++ c.journal ops)).map CrossShardTx.id).Nodup →
      Along advance Harmless c' ops' →
      ∃ votes', c'.after ops' = (c.after ops).withVotes votes' := by
  induction inserted with
  | nil c' =>
      intro J c votes same _ _ _ _
      exact ⟨votes, same⟩
  | @same c' op ops ops' rest ih =>
      intro J c votes same alike tracked distinct harmless
      subst same
      obtain ⟨here, later⟩ := (along_cons_iff rfl).1 harmless
      rw [OrchestratorChain.journal, ← List.append_assoc] at distinct
      have distinct' := nodup_addedIn_left distinct
      obtain ⟨votes', result, alike'⟩ := alike.step tracked op distinct' here
      exact ih result alike' (tracked.moves (c.moves_of_apply op) distinct') distinct later
  | @vote c' txID s canCommit ops ops' outsider rest ih =>
      intro J c votes same alike tracked distinct harmless
      subst same
      obtain ⟨here, later⟩ := (along_cons_iff rfl).1 harmless
      cases found : c.awaitingVotes.lookup txID with
      | none =>
          have gone : txID ∉ c.awaitingVotes := AList.lookup_eq_none.1 found
          refine ih ?_ alike tracked distinct later
          show ((c.withVotes votes).recordVote txID s canCommit).2 = _
          rw [((c.withVotes votes).recordVote_rejected_iff txID s canCommit).2 (Or.inl gone)]
      | some tx =>
          have yes : canCommit = true :=
            here (mem_of_lookup_eq_some found) outsider
          subst yes
          obtain ⟨votes', result, alike'⟩ := alike.outsider_vote tracked found (outsider tx found)
          exact ih result alike' tracked distinct later

end OrchestratorChain

open OrchestratorChain in
/-- **Votes of uninvolved shards.**  In every reachable state such a vote is rejected, with no
effect, exactly if the shard has voted on the transaction before.  And a run in which uninvolved
shards only say YES produces the same blocks as the run without any of their inserted votes. -/
theorem outsiders_tolerated (ops : List Op) :
    (∀ txID tx s canCommit,
      (newOrchestratorChain.after ops).awaitingVotes.lookup txID = some tx →
      s ∉ tx.involvedShards →
      ((newOrchestratorChain.after ops).recordVote txID s canCommit =
          (false, newOrchestratorChain.after ops) ↔
        (((newOrchestratorChain.after ops).votesOn txID).get s).isSome)) ∧
    (((added ops).map CrossShardTx.id).Nodup →
      ∀ ops', Inserted newOrchestratorChain ops ops' →
        Along advance Harmless newOrchestratorChain ops' →
        (newOrchestratorChain.after ops').blocks = (newOrchestratorChain.after ops).blocks) := by
  constructor
  · intro txID tx s canCommit found _
    rw [recordVote_rejected_iff, or_iff_right]
    exact not_not.2 (mem_of_lookup_eq_some found)
  · intro distinct ops' inserted harmless
    rw [← addedIn_journal newOrchestratorChain] at distinct
    have start : Alike newOrchestratorChain ∅ := ⟨fun _ _ => nofun, fun _ _ => nofun, fun _ _ => rfl⟩
    have same : newOrchestratorChain = newOrchestratorChain.withVotes ∅ := rfl
    obtain ⟨votes, result⟩ := alike_after inserted same start tracked_start distinct harmless
    rw [result]
    rfl

namespace OutsidersPole

open LifecyclePole

/-- A payment of shard 0 to shard 1, to which both agree. -/
def agreed : List Op :=
  [.addTransaction (payment "tx-1"), .produceBlock, .recordVote "tx-1" 1 true,
    .recordVote "tx-1" 0 true, .produceBlock]

/-- The same run with a vote of shard 5 after the first block. -/
def interrupted (canCommit : Bool) : List Op :=
  [.addTransaction (payment "tx-1"), .produceBlock, .recordVote "tx-1" 5 canCommit,
    .recordVote "tx-1" 1 true, .recordVote "tx-1" 0 true, .produceBlock]

open OrchestratorChain in
theorem inserted_interrupted (canCommit : Bool) :
    Inserted newOrchestratorChain agreed (interrupted canCommit) := by
  refine .same (.same (.vote ?_ (.same (.same (.same (.nil _))))))
  decide +kernel

end OutsidersPole

open OrchestratorChain OutsidersPole in
/-- A YES of shard 5 leaves every block as it is. -/
theorem extra_yes_changes_no_block :
    (newOrchestratorChain.after (interrupted true)).blocks =
      (newOrchestratorChain.after agreed).blocks :=
  (outsiders_tolerated agreed).2 (by decide) (interrupted true) (inserted_interrupted true)
    (by decide +kernel)

open OrchestratorChain OutsidersPole in
/-- **Shard 5 has no part in the payment, and its NO aborts it.** -/
theorem outsider_aborts :
    Inserted newOrchestratorChain agreed (interrupted false) ∧
    ((newOrchestratorChain.after (agreed.take 2)).recordVote "tx-1" 5 false).1 = true ∧
    ((newOrchestratorChain.after agreed).blocks.map fun b => b.tpcResult.lookup "tx-1") =
      [none, none, some true] ∧
    ((newOrchestratorChain.after (interrupted false)).blocks.map
      fun b => b.tpcResult.lookup "tx-1") = [none, none, some false] := by
  refine ⟨inserted_interrupted false, ?_⟩
  decide +kernel

end CrossShard.Orchestrator
