/-
# Orchestrator.Chain -- the chain that orders and decides cross-shard transactions

`internal/orchestrator/chain.go`.  A transaction is queued (`AddTransaction`), ordered by the
next block, voted on by the shards it involves (`RecordVote`) and decided: by the first NO, by
the last missing YES, or by a timeout.  The decision is published in a later block.

Heights and timeouts are `uint64` values, so the sum that `checkTimeouts` compares with the
height may wrap.  `awaitingVotes` and `pendingResult` are ranged over by the source and are
association lists; the other maps are only read by key.

`Move` says once what an operation can do, one change at a time and with what it tells the
outside (`Note`): a vote that was accepted, a transaction that timed out, what a block orders
and decides.  `moves_of_apply` is the inversion lemma that every invariant rests on.
-/
import CrossShard.Protocol.Types

namespace CrossShard.Orchestrator

set_option autoImplicit false

open CrossShard.Library CrossShard.Protocol

def defaultVoteTimeout : Nat := 10

structure OrchestratorChain where
  blocks : List OrchestratorShardBlock
  height : Nat
  pendingTxs : List CrossShardTx
  awaitingVotes : AList fun _ : TxID => CrossShardTx
  pendingResult : AList fun _ : TxID => Bool
  votes : FMap TxID (FMap Int Bool)
  expectedVoters : FMap TxID (List Int)
  voteStartBlock : FMap TxID Nat
  voteTimeout : Nat

namespace OrchestratorChain

def newOrchestratorChain : OrchestratorChain where
  blocks := [⟨0, ∅, []⟩]
  height := 0
  pendingTxs := []
  awaitingVotes := ∅
  pendingResult := ∅
  votes := ∅
  expectedVoters := ∅
  voteStartBlock := ∅
  voteTimeout := defaultVoteTimeout

/-- The argument is a `uint64`. -/
def setVoteTimeout (c : OrchestratorChain) (blocks : Nat) : OrchestratorChain :=
  { c with voteTimeout := blocks % 2 ^ 64 }

def addTransaction (c : OrchestratorChain) (tx : CrossShardTx) : OrchestratorChain :=
  { c with pendingTxs := c.pendingTxs ++ [tx] }

/-- The five statements that end the vote on `txID`, wherever the source decides it. -/
def settle (c : OrchestratorChain) (txID : TxID) (commit : Bool) : OrchestratorChain :=
  { c with
    pendingResult := c.pendingResult.insert txID commit
    awaitingVotes := c.awaitingVotes.erase txID
    votes := c.votes.delete txID
    expectedVoters := c.expectedVoters.delete txID
    voteStartBlock := c.voteStartBlock.delete txID }

/-- The votes cast on `txID` so far. -/
def votesOn (c : OrchestratorChain) (txID : TxID) : FMap Int Bool := (c.votes.get txID).getD ∅

/-- `RecordVote`: whether the vote is accepted, and the chain.  A vote of a shard that is not
expected counts too, and any NO aborts. -/
def recordVote (c : OrchestratorChain) (txID : TxID) (shardID : Int) (canCommit : Bool) :
    Bool × OrchestratorChain :=
  if txID ∉ c.awaitingVotes then (false, c)
  else
    let c₁ := { c with votes := c.votes.set txID (c.votesOn txID) }
    if ((c₁.votesOn txID).get shardID).isSome then (false, c₁)
    else
      let cast := (c₁.votesOn txID).set shardID canCommit
      let c₂ := { c₁ with votes := c₁.votes.set txID cast }
      if canCommit = false then (true, c₂.settle txID false)
      else
        let expected := (c₂.expectedVoters.get txID).getD []
        if expected.length ≤ cast.len ∧ ∀ s ∈ expected, (cast.get s).isSome then
          (true, c₂.settle txID true)
        else (true, c₂)

/-- The condition of the first loop of `checkTimeouts`. -/
def expired (c : OrchestratorChain) (txID : TxID) : Bool :=
  match c.voteStartBlock.get txID with
  | none => false
  | some startBlock => (startBlock + c.voteTimeout) % 2 ^ 64 ≤ c.height

/-- `checkTimeouts`, and `CheckTimeouts`: the transactions that timed out, and the chain. -/
def checkTimeouts (c : OrchestratorChain) : List TxID × OrchestratorChain :=
  let timedOut := c.awaitingVotes.keys.filter c.expired
  (timedOut, timedOut.foldl (fun c txID => c.settle txID false) c)

/-- The loop of `ProduceBlock` over the pending transactions. -/
def await (newHeight : Nat) (c : OrchestratorChain) (tx : CrossShardTx) : OrchestratorChain :=
  { c with
    awaitingVotes := c.awaitingVotes.insert tx.id tx
    expectedVoters := c.expectedVoters.set tx.id tx.involvedShards
    voteStartBlock := c.voteStartBlock.set tx.id newHeight }

/-- `ProduceBlock` after its call of `checkTimeouts`. -/
def emit (c : OrchestratorChain) : OrchestratorShardBlock × OrchestratorChain :=
  let newHeight := (c.height + 1) % 2 ^ 64
  let block : OrchestratorShardBlock := ⟨newHeight, c.pendingResult, c.pendingTxs⟩
  let c₁ := c.pendingTxs.foldl (await newHeight) c
  (block, { c₁ with
    blocks := c.blocks ++ [block]
    height := newHeight
    pendingTxs := []
    pendingResult := ∅ })

def produceBlock (c : OrchestratorChain) : OrchestratorShardBlock × OrchestratorChain :=
  c.checkTimeouts.2.emit

end OrchestratorChain

/-! ## Operations and what they tell the outside -/

/-- One call on the chain. -/
inductive Op where
  | addTransaction (tx : CrossShardTx)
  | recordVote (txID : TxID) (shardID : Int) (canCommit : Bool)
  | checkTimeouts
  | setVoteTimeout (blocks : Nat)
  | produceBlock

/-- What a caller or a reader of the blocks learns. -/
inductive Note where
  | added (tx : CrossShardTx)
  | accepted (txID : TxID) (shardID : Int) (canCommit : Bool)
  | timedOut (txID : TxID)
  | decided (txID : TxID) (commit : Bool)
  | ordered (tx : CrossShardTx)
  deriving DecidableEq

/-- What a block says: its decisions, then its orders. -/
def blockNotes (block : OrchestratorShardBlock) : List Note :=
  block.tpcResult.entries.map (fun r => .decided r.1 r.2) ++ block.ctToOrder.map .ordered

namespace OrchestratorChain

def apply (c : OrchestratorChain) : Op → OrchestratorChain
  | .addTransaction tx => c.addTransaction tx
  | .recordVote txID shardID canCommit => (c.recordVote txID shardID canCommit).2
  | .checkTimeouts => c.checkTimeouts.2
  | .setVoteTimeout blocks => c.setVoteTimeout blocks
  | .produceBlock => c.produceBlock.2

def notes (c : OrchestratorChain) : Op → List Note
  | .addTransaction tx => [.added tx]
  | .recordVote txID shardID canCommit =>
      if (c.recordVote txID shardID canCommit).1 then [.accepted txID shardID canCommit] else []
  | .checkTimeouts => c.checkTimeouts.1.map .timedOut
  | .setVoteTimeout _ => []
  | .produceBlock => c.checkTimeouts.1.map .timedOut ++ blockNotes c.produceBlock.1

/-- The chain after a list of calls. -/
def after (c : OrchestratorChain) (ops : List Op) : OrchestratorChain := ops.foldl apply c

/-- All that a list of calls tells the outside, in order. -/
def journal (c : OrchestratorChain) : List Op → List Note
  | [] => []
  | op :: ops => c.notes op ++ journal (c.apply op) ops

theorem journal_append (c : OrchestratorChain) (ops ops' : List Op) :
    c.journal (ops ++ ops') = c.journal ops ++ (c.after ops).journal ops' := by
  induction ops generalizing c with
  | nil => rfl
  | cons op ops ih =>
      rw [List.cons_append, journal, journal, ih, List.append_assoc]
      rfl

end OrchestratorChain

/-! ## What an operation can do -/

/-- One change of the chain, with the checks that led to it. -/
inductive Move (c : OrchestratorChain) : List Note → OrchestratorChain → Prop
  | queued (tx : CrossShardTx) : Move c [.added tx] (c.addTransaction tx)
  | retimed (blocks : Nat) : Move c [] (c.setVoteTimeout blocks)
  | cast (txID : TxID) (shardID : Int) (awaiting : txID ∈ c.awaitingVotes) :
      Move c [.accepted txID shardID true]
        { c with votes := c.votes.set txID ((c.votesOn txID).set shardID true) }
  | refused (txID : TxID) (shardID : Int) (awaiting : txID ∈ c.awaitingVotes) :
      Move c [.accepted txID shardID false] (c.settle txID false)
  | agreed (txID : TxID) (shardID : Int) (awaiting : txID ∈ c.awaitingVotes)
      (all : ∀ s ∈ (c.expectedVoters.get txID).getD [],
        s = shardID ∨ ((c.votesOn txID).get s).isSome) :
      Move c [.accepted txID shardID true] (c.settle txID true)
  | expired (txID : TxID) (awaiting : txID ∈ c.awaitingVotes) :
      Move c [.timedOut txID] (c.settle txID false)
  | emitted : Move c (blockNotes c.emit.1) c.emit.2

/-- A sequence of changes. -/
inductive Moves : OrchestratorChain → List Note → OrchestratorChain → Prop
  | refl (c : OrchestratorChain) : Moves c [] c
  | cons {c c₁ c₂ : OrchestratorChain} {notes notes' : List Note} (first : Move c notes c₁)
      (rest : Moves c₁ notes' c₂) : Moves c (notes ++ notes') c₂

theorem Moves.single {c c' : OrchestratorChain} {notes : List Note} (move : Move c notes c') :
    Moves c notes c' := by
  have one := Moves.cons move (.refl c')
  rwa [List.append_nil] at one

theorem Moves.trans {c c₁ c₂ : OrchestratorChain} {notes notes' : List Note}
    (first : Moves c notes c₁) (second : Moves c₁ notes' c₂) : Moves c (notes ++ notes') c₂ := by
  induction first with
  | refl c => exact second
  | cons move rest ih =>
      rw [List.append_assoc]
      exact .cons move (ih second)

namespace OrchestratorChain

/-- Settling `txID` forgets the votes on it. -/
theorem settle_votes (c : OrchestratorChain) (txID : TxID) (cast : FMap Int Bool) (commit : Bool) :
    settle { c with votes := c.votes.set txID cast } txID commit = c.settle txID commit := by
  have same : (c.votes.set txID cast).delete txID = c.votes.delete txID := by
    apply FMap.ext
    intro k
    by_cases own : k = txID <;> simp [own]
  simp only [settle, same]

/-- With `shardID`'s YES, every expected voter has voted. -/
def Complete (c : OrchestratorChain) (txID : TxID) (shardID : Int) : Prop :=
  ((c.expectedVoters.get txID).getD []).length ≤ ((c.votesOn txID).set shardID true).len ∧
    ∀ s ∈ (c.expectedVoters.get txID).getD [], (((c.votesOn txID).set shardID true).get s).isSome

instance (c : OrchestratorChain) (txID : TxID) (shardID : Int) :
    Decidable (c.Complete txID shardID) := inferInstanceAs (Decidable (_ ∧ _))

/-- What `RecordVote` does, without the entries that it makes and deletes again. -/
theorem recordVote_eq (c : OrchestratorChain) (txID : TxID) (shardID : Int) (canCommit : Bool) :
    c.recordVote txID shardID canCommit =
      if txID ∉ c.awaitingVotes ∨ ((c.votesOn txID).get shardID).isSome then (false, c)
      else if canCommit = false then (true, c.settle txID false)
      else if c.Complete txID shardID then (true, c.settle txID true)
      else (true, { c with votes := c.votes.set txID ((c.votesOn txID).set shardID true) }) := by
  have stored : { c with votes := c.votes.set txID (c.votesOn txID) }.votesOn txID =
      c.votesOn txID := by simp [votesOn]
  have twice : ∀ cast, (c.votes.set txID (c.votesOn txID)).set txID cast = c.votes.set txID cast := by
    intro cast
    apply FMap.ext
    intro k
    by_cases own : k = txID <;> simp [own]
  simp only [recordVote, stored, twice]
  by_cases awaiting : txID ∈ c.awaitingVotes
  · rw [if_neg (not_not.2 awaiting)]
    split
    · -- a duplicate leaves the votes as they are
      rename_i voted
      rw [if_pos (.inr voted)]
      have same : c.votes.set txID (c.votesOn txID) = c.votes := by
        apply FMap.ext
        intro k
        by_cases own : k = txID
        · subst own
          cases found : c.votes.get k with
          | none => simp [votesOn, found] at voted
          | some cast => simp [votesOn, found]
        · simp [own]
      simp only [same]
    · rename_i fresh
      rw [if_neg (not_or.2 ⟨not_not.2 awaiting, fresh⟩)]
      cases canCommit with
      | false => simp only [if_true, settle_votes]
      | true =>
          simp only [Bool.true_eq_false, if_false, settle_votes]
          rfl
  · rw [if_pos awaiting, if_pos (.inl awaiting)]

theorem moves_recordVote (c : OrchestratorChain) (txID : TxID) (shardID : Int) (canCommit : Bool) :
    Moves c (c.notes (.recordVote txID shardID canCommit))
      (c.apply (.recordVote txID shardID canCommit)) := by
  simp only [notes, apply, recordVote_eq]
  split
  · exact .refl c
  · rename_i taken
    have awaiting : txID ∈ c.awaitingVotes := not_not.1 (not_or.1 taken).1
    cases canCommit with
    | false => exact .single (.refused txID shardID awaiting)
    | true =>
        simp only [Bool.true_eq_false, if_false]
        split
        · rename_i complete
          apply Moves.single
          apply Move.agreed txID shardID awaiting
          intro s expected
          by_cases own : s = shardID
          · exact Or.inl own
          · have voted := complete.2 s expected
            rw [FMap.get_set, if_neg own] at voted
            exact Or.inr voted
        · exact .single (.cast txID shardID awaiting)

/-- A vote touches neither the blocks nor the queue. -/
theorem frame_recordVote (c : OrchestratorChain) (txID : TxID) (shardID : Int) (canCommit : Bool) :
    (c.recordVote txID shardID canCommit).2.blocks = c.blocks ∧
      (c.recordVote txID shardID canCommit).2.pendingTxs = c.pendingTxs := by
  rw [recordVote_eq]
  split
  · exact ⟨rfl, rfl⟩
  · split
    · exact ⟨rfl, rfl⟩
    · split <;> exact ⟨rfl, rfl⟩

/-- Nor do timeouts. -/
theorem frame_checkTimeouts (c : OrchestratorChain) :
    c.checkTimeouts.2.blocks = c.blocks ∧ c.checkTimeouts.2.pendingTxs = c.pendingTxs := by
  have all : ∀ (txIDs : List TxID) (c : OrchestratorChain),
      (txIDs.foldl (fun c txID => c.settle txID false) c).blocks = c.blocks ∧
        (txIDs.foldl (fun c txID => c.settle txID false) c).pendingTxs = c.pendingTxs := by
    intro txIDs
    induction txIDs with
    | nil => exact fun c => ⟨rfl, rfl⟩
    | cons txID txIDs ih => exact fun c => ih (c.settle txID false)
  exact all _ c

theorem mem_awaiting_settle {c : OrchestratorChain} {txID x : TxID} {commit : Bool} :
    x ∈ (c.settle txID commit).awaitingVotes ↔ x ≠ txID ∧ x ∈ c.awaitingVotes :=
  AList.mem_erase

/-- Timeouts abort one transaction after the other. -/
theorem moves_expired (c : OrchestratorChain) (txIDs : List TxID) (nodup : txIDs.Nodup)
    (awaiting : ∀ x ∈ txIDs, x ∈ c.awaitingVotes) :
    Moves c (txIDs.map .timedOut) (txIDs.foldl (fun c txID => c.settle txID false) c) := by
  induction txIDs generalizing c with
  | nil => exact .refl c
  | cons txID txIDs ih =>
      obtain ⟨new, nodup'⟩ := List.nodup_cons.1 nodup
      refine .cons (.expired txID (awaiting txID (List.mem_cons_self ..))) (ih _ nodup' ?_)
      intro x member
      refine mem_awaiting_settle.2 ⟨?_, awaiting x (List.mem_cons_of_mem _ member)⟩
      rintro rfl
      exact new member

theorem moves_checkTimeouts (c : OrchestratorChain) :
    Moves c (c.checkTimeouts.1.map .timedOut) c.checkTimeouts.2 := by
  apply moves_expired
  · exact c.awaitingVotes.keys_nodup.filter _
  · intro x member
    exact AList.mem_keys.2 (List.mem_filter.1 member).1

/-- **Inversion.**  Every operation is a sequence of the listed changes. -/
theorem moves_of_apply (c : OrchestratorChain) (op : Op) : Moves c (c.notes op) (c.apply op) := by
  cases op with
  | addTransaction tx => exact .single (.queued tx)
  | recordVote txID shardID canCommit => exact c.moves_recordVote txID shardID canCommit
  | checkTimeouts => exact c.moves_checkTimeouts
  | setVoteTimeout blocks => exact .single (.retimed blocks)
  | produceBlock => exact c.moves_checkTimeouts.trans (.single .emitted)

end OrchestratorChain

end CrossShard.Orchestrator
