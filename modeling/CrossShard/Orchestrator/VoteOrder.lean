/-
# Orchestrator.VoteOrder -- the decision does not depend on the order of the votes

The first vote of a shard on a transaction counts; one NO aborts at once, the last missing YES
commits at once, and what comes after a decision is ignored.  The paths through `RecordVote`
differ with the order of the votes, the outcome does not: it is a function of the first vote of
each expected shard (`verdict`).

* `Counted`: the state of every transaction after any sequence of votes, in closed form.
* `vote_order_irrelevant`: the closed form, and that sequences which agree on the votes of each
  pair of transaction and shard lead to the same maps.
-/
import CrossShard.Orchestrator.Lifecycle

namespace CrossShard.Orchestrator

set_option autoImplicit false

open CrossShard.Library CrossShard.Protocol

/-! ## Votes and verdicts -/

structure Vote where
  txID : TxID
  shardID : Int
  canCommit : Bool
  deriving DecidableEq

namespace Vote

def op (v : Vote) : Op := .recordVote v.txID v.shardID v.canCommit

/-- The vote is `shardID`'s on `txID`. -/
def on (txID : TxID) (shardID : Int) (v : Vote) : Bool := v.txID = txID ∧ v.shardID = shardID

end Vote

/-- The first vote of `shardID` on `txID`. -/
def firstVote (vs : List Vote) (txID : TxID) (shardID : Int) : Option Bool :=
  (vs.find? (Vote.on txID shardID)).map Vote.canCommit

/-- What the first votes of the expected shards come to. -/
def verdict (voters : List Int) (first : Int → Option Bool) : Option Bool :=
  if ∃ s ∈ voters, first s = some false then some false
  else if ∀ s ∈ voters, first s = some true then some true
  else none

theorem firstVote_concat (vs : List Vote) (v : Vote) (txID : TxID) (s : Int) :
    firstVote (vs ++ [v]) txID s =
      (firstVote vs txID s).or (if v.on txID s then some v.canCommit else none) := by
  unfold firstVote
  rw [List.find?_append]
  cases vs.find? (Vote.on txID s) with
  | some w => rfl
  | none =>
      simp only [Option.none_or, List.find?_cons, List.find?_nil, Option.map_none]
      cases v.on txID s <;> rfl

/-- A vote of another pair, or one that is not the first, changes nothing. -/
theorem firstVote_concat_of_voted {vs : List Vote} {v : Vote} {txID : TxID} {s : Int}
    (old : v.on txID s = true → (firstVote vs txID s).isSome) :
    firstVote (vs ++ [v]) txID s = firstVote vs txID s := by
  rw [firstVote_concat]
  cases found : firstVote vs txID s with
  | some b => rfl
  | none =>
      have off : v.on txID s ≠ true := fun on => by
        have := old on
        rw [found] at this
        cases this
      simp [off]

theorem firstVote_concat_of_first {vs : List Vote} {v : Vote}
    (first : firstVote vs v.txID v.shardID = none) (s : Int) :
    firstVote (vs ++ [v]) v.txID s =
      if s = v.shardID then some v.canCommit else firstVote vs v.txID s := by
  rw [firstVote_concat]
  by_cases own : s = v.shardID
  · subst own
    simp [first, Vote.on]
  · simp [Vote.on, Ne.symm own, own]

theorem verdict_eq_none {voters : List Int} {first : Int → Option Bool} :
    verdict voters first = none ↔
      (∀ s ∈ voters, first s ≠ some false) ∧ ∃ s ∈ voters, first s ≠ some true := by
  unfold verdict
  split
  · rename_i no
    obtain ⟨s, voter, refused⟩ := no
    simp only [reduceCtorEq, false_iff, not_and]
    exact fun none => absurd refused (none s voter)
  · rename_i none
    push Not at none
    split
    · rename_i all
      simp only [reduceCtorEq, false_iff, not_and, not_exists, not_not]
      exact fun _ s voter => all s voter
    · rename_i missing
      push Not at missing
      exact ⟨fun _ => ⟨none, missing⟩, fun _ => rfl⟩

theorem verdict_eq_false {voters : List Int} {first : Int → Option Bool} {s : Int}
    (voter : s ∈ voters) (refused : first s = some false) : verdict voters first = some false :=
  if_pos ⟨s, voter, refused⟩

theorem verdict_eq_true {voters : List Int} {first : Int → Option Bool}
    (all : ∀ s ∈ voters, first s = some true) : verdict voters first = some true := by
  unfold verdict
  rw [if_neg, if_pos all]
  rintro ⟨s, voter, refused⟩
  rw [all s voter] at refused
  cases refused

/-- A verdict stands, whatever votes come later. -/
theorem verdict_stands {voters : List Int} {first first' : Int → Option Bool} {b : Bool}
    (grows : ∀ s b, first s = some b → first' s = some b)
    (decided : verdict voters first = some b) : verdict voters first' = some b := by
  unfold verdict at decided
  split at decided
  · rename_i no
    obtain ⟨s, voter, refused⟩ := no
    cases decided
    exact verdict_eq_false voter (grows s false refused)
  · split at decided
    · rename_i all
      cases decided
      exact verdict_eq_true fun s voter => grows s true (all s voter)
    · cases decided

/-! ## The state of one transaction -/

/-- What the four maps hold for one transaction. -/
structure Entry where
  pendingResult : Option Bool
  awaitingVotes : Option CrossShardTx
  expectedVoters : Option (List Int)
  voteStartBlock : Option Nat
  deriving DecidableEq

/-- The entry of a decided transaction. -/
def Entry.settled (commit : Bool) : Entry := ⟨some commit, none, none, none⟩

namespace OrchestratorChain

def entry (c : OrchestratorChain) (txID : TxID) : Entry :=
  ⟨c.pendingResult.lookup txID, c.awaitingVotes.lookup txID, c.expectedVoters.get txID,
    c.voteStartBlock.get txID⟩

theorem entry_settle (c : OrchestratorChain) (txID x : TxID) (commit : Bool) :
    (c.settle txID commit).entry x = if x = txID then .settled commit else c.entry x := by
  simp only [entry, settle, lookup_insert_ite, lookup_erase_ite, FMap.get_delete]
  split <;> rfl

theorem votesOn_settle {c : OrchestratorChain} {txID x : TxID} (commit : Bool) (other : x ≠ txID) :
    (c.settle txID commit).votesOn x = c.votesOn x := by
  simp [votesOn, settle, other]

/-- The verdict on `txID` after the votes `vs` on a chain without votes. -/
def outcome (c : OrchestratorChain) (vs : List Vote) (txID : TxID) : Option Bool :=
  (c.expectedVoters.get txID).bind fun voters => verdict voters (firstVote vs txID)

/-- The entry that the votes lead to. -/
def entryAfter (c : OrchestratorChain) (vs : List Vote) (txID : TxID) : Entry :=
  match c.outcome vs txID with
  | some commit => .settled commit
  | none => c.entry txID

/-- Every expected voter is yet to vote. -/
structure Unvoted (c : OrchestratorChain) : Prop where
  awaiting : ∀ txID voters, c.expectedVoters.get txID = some voters → txID ∈ c.awaitingVotes
  voters : ∀ txID voters, c.expectedVoters.get txID = some voters → voters ≠ [] ∧ voters.Nodup
  none : ∀ txID voters, c.expectedVoters.get txID = some voters →
    ∀ s, (c.votesOn txID).get s = none

/-- The state that the votes `vs` on `c` lead to. -/
structure Counted (c : OrchestratorChain) (vs : List Vote) (c' : OrchestratorChain) : Prop where
  entries : ∀ txID, c'.entry txID = c.entryAfter vs txID
  votes : ∀ txID voters, c.expectedVoters.get txID = some voters → c.outcome vs txID = none →
    ∀ s, (c'.votesOn txID).get s = firstVote vs txID s

theorem outcome_nil {c : OrchestratorChain} (unvoted : Unvoted c) (txID : TxID) :
    c.outcome [] txID = none := by
  unfold outcome
  cases found : c.expectedVoters.get txID with
  | none => rfl
  | some voters =>
      obtain ⟨s, voter⟩ := List.exists_mem_of_ne_nil voters (unvoted.voters txID voters found).1
      exact verdict_eq_none.2 ⟨fun _ _ => nofun, s, voter, nofun⟩

theorem counted_start {c : OrchestratorChain} (unvoted : Unvoted c) : Counted c [] c where
  entries := fun txID => by
    unfold entryAfter
    rw [outcome_nil unvoted]
  votes := fun txID voters known _ s => unvoted.none txID voters known s

/-! ## One vote -/

section Step

variable {c c' : OrchestratorChain} {vs : List Vote} {v : Vote}

theorem outcome_congr {vs' : List Vote} {txID : TxID}
    (same : ∀ s, firstVote vs' txID s = firstVote vs txID s) :
    c.outcome vs' txID = c.outcome vs txID := by
  have firsts : firstVote vs' txID = firstVote vs txID := funext same
  unfold outcome
  rw [firsts]

theorem firstVote_other {txID : TxID} (other : txID ≠ v.txID) (s : Int) :
    firstVote (vs ++ [v]) txID s = firstVote vs txID s :=
  firstVote_concat_of_voted fun on => by
    simp only [Vote.on, decide_eq_true_eq] at on
    exact absurd on.1.symm other

/-- A vote that is not counted: nothing changes, and no outcome does. -/
theorem Counted.ignored (counted : Counted c vs c')
    (same : ∀ txID, c.outcome (vs ++ [v]) txID = c.outcome vs txID)
    (firsts : ∀ txID, c.outcome vs txID = none →
      ∀ s, firstVote (vs ++ [v]) txID s = firstVote vs txID s) :
    Counted c (vs ++ [v]) c' where
  entries := fun txID => by
    rw [counted.entries, entryAfter, entryAfter, same]
  votes := fun txID voters known undecided s => by
    rw [same] at undecided
    rw [counted.votes txID voters known undecided, firsts txID undecided]

/-- A vote that decides. -/
theorem Counted.decides {commit : Bool} (counted : Counted c vs c')
    (decided : c.outcome (vs ++ [v]) v.txID = some commit) :
    Counted c (vs ++ [v]) (c'.settle v.txID commit) where
  entries := fun txID => by
    rw [entry_settle]
    split
    · rename_i own
      rw [own, entryAfter, decided]
    · rename_i other
      rw [counted.entries, entryAfter, entryAfter, outcome_congr (firstVote_other other)]
  votes := fun txID voters known undecided s => by
    have other : txID ≠ v.txID := by
      rintro rfl
      rw [decided] at undecided
      cases undecided
    rw [outcome_congr (firstVote_other other)] at undecided
    rw [votesOn_settle commit other, counted.votes txID voters known undecided,
      firstVote_other other]

/-- A YES that leaves other votes missing. -/
theorem Counted.kept (counted : Counted c vs c')
    (before : c.outcome vs v.txID = none) (after : c.outcome (vs ++ [v]) v.txID = none)
    (own : ∀ s, ((c'.votesOn v.txID).set v.shardID true).get s =
      firstVote (vs ++ [v]) v.txID s) :
    Counted c (vs ++ [v]) { c' with
      votes := c'.votes.set v.txID ((c'.votesOn v.txID).set v.shardID true) } where
  entries := fun txID => by
    show c'.entry txID = _
    rw [counted.entries, entryAfter, entryAfter]
    by_cases same : txID = v.txID
    · rw [same, before, after]
    · rw [outcome_congr (firstVote_other same)]
  votes := fun txID voters known undecided s => by
    by_cases same : txID = v.txID
    · subst same
      rw [← own s]
      simp [votesOn]
    · rw [outcome_congr (firstVote_other same)] at undecided
      rw [firstVote_other same, ← counted.votes txID voters known undecided]
      simp [votesOn, same]

/-- A verdict on a transaction stands. -/
theorem outcome_stands {txID : TxID} {commit : Bool} (decided : c.outcome vs txID = some commit) :
    c.outcome (vs ++ [v]) txID = some commit := by
  obtain ⟨voters, known, verdict⟩ := Option.bind_eq_some_iff.1 decided
  refine Option.bind_eq_some_iff.2 ⟨voters, known, verdict_stands ?_ verdict⟩
  intro s b first
  rw [firstVote_concat, first]
  rfl

/-- A vote on a decided transaction. -/
theorem Counted.late {commit : Bool} (counted : Counted c vs c')
    (decided : c.outcome vs v.txID = some commit) :
    v.txID ∉ c'.awaitingVotes ∧ Counted c (vs ++ [v]) c' := by
  refine ⟨?_, counted.ignored ?_ ?_⟩
  · have entry := counted.entries v.txID
    rw [entryAfter, decided] at entry
    have gone : c'.awaitingVotes.lookup v.txID = none := congrArg Entry.awaitingVotes entry
    exact AList.lookup_eq_none.1 gone
  · intro txID
    by_cases own : txID = v.txID
    · rw [own, decided, outcome_stands decided]
    · exact outcome_congr (firstVote_other own)
  · intro txID undecided s
    refine firstVote_other ?_ s
    rintro rfl
    rw [decided] at undecided
    cases undecided

/-- A second vote of the same shard. -/
theorem Counted.again (counted : Counted c vs c')
    (voted : (firstVote vs v.txID v.shardID).isSome) : Counted c (vs ++ [v]) c' := by
  have same : ∀ txID s, firstVote (vs ++ [v]) txID s = firstVote vs txID s := by
    intro txID s
    refine firstVote_concat_of_voted fun on => ?_
    simp only [Vote.on, decide_eq_true_eq] at on
    rw [← on.1, ← on.2]
    exact voted
  exact counted.ignored (fun txID => outcome_congr (same txID)) fun txID _ => same txID

/-- The count and the loop of `RecordVote` come to: every expected voter said YES. -/
theorem complete_iff {txID : TxID} {shardID : Int} {voters : List Int} {first : Int → Option Bool}
    (expected : c'.expectedVoters.get txID = some voters) (nodup : voters.Nodup)
    (cast : ∀ s, ((c'.votesOn txID).set shardID true).get s = first s)
    (unrefused : ∀ s ∈ voters, first s ≠ some false) :
    c'.Complete txID shardID ↔ ∀ s ∈ voters, first s = some true := by
  unfold Complete
  rw [expected]
  constructor
  · rintro ⟨-, all⟩ s voter
    obtain ⟨b, found⟩ := Option.isSome_iff_exists.1 (all s voter)
    rw [cast] at found
    cases b with
    | true => exact found
    | false => exact absurd found (unrefused s voter)
  · intro all
    have present : ∀ s ∈ voters, ((c'.votesOn txID).set shardID true).get s = some true := by
      intro s voter
      rw [cast, all s voter]
    refine ⟨FMap.length_le_len nodup fun s voter => ?_, fun s voter => ?_⟩
    · rw [present s voter]
      exact nofun
    · rw [present s voter]
      rfl

/-- **One vote** of an expected voter. -/
theorem Counted.vote {voters : List Int} (unvoted : Unvoted c) (counted : Counted c vs c')
    (known : c.expectedVoters.get v.txID = some voters) (voter : v.shardID ∈ voters) :
    Counted c (vs ++ [v]) (c'.apply v.op) := by
  show Counted c _ (c'.recordVote v.txID v.shardID v.canCommit).2
  rw [recordVote_eq]
  cases before : c.outcome vs v.txID with
  | some commit =>
      obtain ⟨gone, late⟩ := counted.late before
      rw [if_pos (.inl gone)]
      exact late
  | none =>
      have entry := counted.entries v.txID
      rw [entryAfter, before] at entry
      have expected : c'.expectedVoters.get v.txID = some voters :=
        (congrArg Entry.expectedVoters entry).trans known
      have waits : v.txID ∈ c'.awaitingVotes := by
        have same : c'.awaitingVotes.lookup v.txID = c.awaitingVotes.lookup v.txID :=
          congrArg Entry.awaitingVotes entry
        rw [← AList.lookup_isSome, same, AList.lookup_isSome]
        exact unvoted.awaiting v.txID voters known
      have votes := counted.votes v.txID voters known before
      have undecided : verdict voters (firstVote vs v.txID) = none := by
        rw [outcome, known] at before
        exact before
      obtain ⟨unrefused, -⟩ := verdict_eq_none.1 undecided
      rw [votes]
      split
      · rename_i ignored
        exact counted.again (ignored.resolve_left (not_not.2 waits))
      · rename_i taken
        have first : firstVote vs v.txID v.shardID = none := by
          simpa using (not_or.1 taken).2
        have firsts := firstVote_concat_of_first first
        have verdict' : c.outcome (vs ++ [v]) v.txID =
            verdict voters (firstVote (vs ++ [v]) v.txID) := by
          rw [outcome, known]
          rfl
        split
        · rename_i no
          refine counted.decides (verdict'.trans (verdict_eq_false voter ?_))
          rw [firsts, if_pos rfl, no]
        · rename_i yes
          have yes : v.canCommit = true := by simpa using yes
          have cast : ∀ s, ((c'.votesOn v.txID).set v.shardID true).get s =
              firstVote (vs ++ [v]) v.txID s := by
            intro s
            rw [FMap.get_set, votes, firsts, yes]
          have unrefused' : ∀ s ∈ voters, firstVote (vs ++ [v]) v.txID s ≠ some false := by
            intro s member
            rw [firsts, yes]
            split
            · exact nofun
            · exact unrefused s member
          have complete := complete_iff expected (unvoted.voters _ _ known).2 cast unrefused'
          split
          · rename_i all
            exact counted.decides (verdict'.trans (verdict_eq_true (complete.1 all)))
          · rename_i missing
            rw [complete] at missing
            push Not at missing
            exact counted.kept before (verdict'.trans (verdict_eq_none.2 ⟨unrefused', missing⟩)) cast

/-- **Any sequence of votes** of expected voters. -/
theorem counted_after (unvoted : Unvoted c) (vs : List Vote)
    (voters : ∀ v ∈ vs, v.shardID ∈ (c.expectedVoters.get v.txID).getD []) :
    Counted c vs (c.after (vs.map Vote.op)) := by
  induction vs using List.reverseRecOn with
  | nil => exact counted_start unvoted
  | append_singleton vs v ih =>
      have before := ih fun w member => voters w (List.mem_append_left _ member)
      have voter := voters v (List.mem_append_right _ List.mem_cons_self)
      rw [List.map_append, after, List.foldl_append]
      cases known : c.expectedVoters.get v.txID with
      | none => simp [known] at voter
      | some expected =>
          rw [known] at voter
          exact before.vote unvoted known voter

end Step

/-- In a reachable state the awaiting transactions have voters. -/
theorem unvoted_of_tracked {J : List Note} {c : OrchestratorChain} (tracked : Tracked J c)
    (none : ∀ txID ∈ c.awaitingVotes, ∀ s, (c.votesOn txID).get s = none) : Unvoted c := by
  have waits : ∀ txID voters, c.expectedVoters.get txID = some voters →
      txID ∈ c.awaitingVotes := fun txID voters known => tracked.expected txID (by simp [known])
  refine ⟨waits, ?_, fun txID voters known => none txID (waits txID voters known)⟩
  intro txID voters known
  obtain ⟨tx, waiting, -⟩ := tracked.ordered_of_awaiting (waits txID voters known)
  have same : voters = tx.involvedShards := by
    have expected := waiting.expected
    rw [known] at expected
    exact Option.some.inj expected
  rw [same]
  refine ⟨?_, tx.nodup_involvedShards⟩
  have source : tx.fromShard ∈ tx.involvedShards := CrossShardTx.mem_involvedShards.2 (.inl rfl)
  exact List.ne_nil_of_mem source

end OrchestratorChain

/-! ## Reordering -/

/-- The same votes, those of each pair of transaction and shard in the same order. -/
def Reordered (vs vs' : List Vote) : Prop :=
  vs.Perm vs' ∧ ∀ txID s, vs.filter (Vote.on txID s) = vs'.filter (Vote.on txID s)

theorem Reordered.firstVote {vs vs' : List Vote} (reordered : Reordered vs vs') (txID : TxID)
    (s : Int) : firstVote vs' txID s = firstVote vs txID s := by
  unfold Orchestrator.firstVote
  rw [← List.head?_filter, ← List.head?_filter, reordered.2]

open OrchestratorChain in
/-- **The decision does not depend on the order of the votes.**  From every reachable state
without votes, any sequence of votes of expected voters leaves each transaction aborted when some
expected shard's first vote is NO, committed when all of them are YES, and awaiting otherwise;
every reordering leads to the same maps. -/
theorem vote_order_irrelevant (ops : List Op) (distinct : ((added ops).map CrossShardTx.id).Nodup)
    (c : OrchestratorChain) (reached : c = newOrchestratorChain.after ops)
    (unvoted : ∀ txID ∈ c.awaitingVotes, ∀ s, (c.votesOn txID).get s = none) (vs : List Vote)
    (voters : ∀ v ∈ vs, v.txID ∈ c.awaitingVotes ∧
      v.shardID ∈ (c.expectedVoters.get v.txID).getD []) :
    (∀ txID, (c.after (vs.map Vote.op)).entry txID = c.entryAfter vs txID) ∧
    ∀ vs', Reordered vs vs' →
      (c.after (vs'.map Vote.op)).pendingResult.toFinmap =
          (c.after (vs.map Vote.op)).pendingResult.toFinmap ∧
        (c.after (vs'.map Vote.op)).awaitingVotes.toFinmap =
          (c.after (vs.map Vote.op)).awaitingVotes.toFinmap ∧
        (c.after (vs'.map Vote.op)).expectedVoters = (c.after (vs.map Vote.op)).expectedVoters ∧
        (c.after (vs'.map Vote.op)).voteStartBlock = (c.after (vs.map Vote.op)).voteStartBlock := by
  rw [← addedIn_journal newOrchestratorChain] at distinct
  have tracked := tracked_start.after ops distinct
  rw [← reached] at tracked
  have start := unvoted_of_tracked tracked unvoted
  have counted := counted_after start vs fun v member => (voters v member).2
  refine ⟨counted.entries, fun vs' reordered => ?_⟩
  have counted' := counted_after start vs' fun v member =>
    (voters v (reordered.1.mem_iff.2 member)).2
  have same : ∀ txID, (c.after (vs'.map Vote.op)).entry txID =
      (c.after (vs.map Vote.op)).entry txID := by
    intro txID
    rw [counted.entries, counted'.entries, entryAfter, entryAfter,
      outcome_congr (reordered.firstVote txID)]
  refine ⟨?_, ?_, ?_, ?_⟩
  · exact Finmap.ext_lookup fun txID => congrArg Entry.pendingResult (same txID)
  · exact Finmap.ext_lookup fun txID => congrArg Entry.awaitingVotes (same txID)
  · exact FMap.ext fun txID => congrArg Entry.expectedVoters (same txID)
  · exact FMap.ext fun txID => congrArg Entry.voteStartBlock (same txID)

namespace VoteOrderPole

open LifecyclePole

/-- Two payments are ordered and await the votes of shards 0 and 1. -/
def ordered : List Op :=
  [.addTransaction (payment "tx-1"), .addTransaction (payment "tx-2"), .produceBlock]

/-- Shard 1 changes its mind on the first payment and refuses the second. -/
def ballots : List Vote :=
  [⟨"tx-1", 1, true⟩, ⟨"tx-1", 1, false⟩, ⟨"tx-2", 0, true⟩, ⟨"tx-2", 1, false⟩, ⟨"tx-1", 0, true⟩]

/-- The same votes: the refusal comes first. -/
def otherBallots : List Vote :=
  [⟨"tx-2", 1, false⟩, ⟨"tx-1", 0, true⟩, ⟨"tx-1", 1, true⟩, ⟨"tx-2", 0, true⟩, ⟨"tx-1", 1, false⟩]

theorem reordered_ballots : Reordered ballots otherBallots := by
  refine ⟨by decide, fun txID s => ?_⟩
  by_cases first : "tx-1" = txID
  · subst first
    by_cases zero : 0 = s
    · subst zero
      rfl
    · simp [ballots, otherBallots, Vote.on, zero, List.filter_cons]
  · by_cases zero : 0 = s
    · subst zero
      simp [ballots, otherBallots, Vote.on, first, List.filter_cons]
    · simp [ballots, otherBallots, Vote.on, first, zero, List.filter_cons]

end VoteOrderPole

open VoteOrderPole OrchestratorChain in
/-- Either way the first payment is committed and the second aborted. -/
theorem ballots_in_either_order :
    ((newOrchestratorChain.after ordered).after (ballots.map Vote.op)).entry "tx-1" =
        .settled true ∧
      ((newOrchestratorChain.after ordered).after (ballots.map Vote.op)).entry "tx-2" =
        .settled false ∧
      ((newOrchestratorChain.after ordered).after (otherBallots.map Vote.op)).pendingResult.toFinmap =
        ((newOrchestratorChain.after ordered).after (ballots.map Vote.op)).pendingResult.toFinmap := by
  have result := vote_order_irrelevant ordered (by decide) _ rfl
    (by
      intro txID awaiting s
      rfl)
    ballots (by decide +kernel)
  refine ⟨(result.1 "tx-1").trans (by decide +kernel), (result.1 "tx-2").trans (by decide +kernel),
    (result.2 otherBallots reordered_ballots).1⟩

end CrossShard.Orchestrator
