/-
# Orchestrator.Lifecycle -- what happens to a transaction between its two blocks

`Tracked` is the invariant of every run in which no ID is added twice.  Its core is a
conservation law (`placed`): the IDs added are exactly, and each once, those pending, awaiting
votes, waiting to be published and published.  Every operation moves IDs from one of these
places to the next, and the notes of the journal say why.

`transaction_lifecycle` reads the law off for one transaction: it is ordered by the next block,
in the order of arrival; it is always in exactly one place; and its published decision is later
than its order and justified by the votes accepted in between.
-/
import Mathlib.Data.List.Induction
import CrossShard.Orchestrator.Chain

namespace CrossShard.Orchestrator

set_option autoImplicit false

open CrossShard.Library CrossShard.Protocol

/-! ## Reading the journal -/

def addedIn (notes : List Note) : List CrossShardTx :=
  notes.filterMap fun
    | .added tx => some tx
    | _ => none

def orderedIn (notes : List Note) : List CrossShardTx :=
  notes.filterMap fun
    | .ordered tx => some tx
    | _ => none

@[simp] theorem addedIn_append (J K : List Note) : addedIn (J ++ K) = addedIn J ++ addedIn K :=
  List.filterMap_append ..

@[simp] theorem orderedIn_append (J K : List Note) :
    orderedIn (J ++ K) = orderedIn J ++ orderedIn K := List.filterMap_append ..

theorem nodup_addedIn_left {J K : List Note}
    (distinct : ((addedIn (J ++ K)).map CrossShardTx.id).Nodup) :
    ((addedIn J).map CrossShardTx.id).Nodup := by
  rw [addedIn_append, List.map_append] at distinct
  exact (List.nodup_append.1 distinct).1

theorem addedIn_blockNotes (block : OrchestratorShardBlock) : addedIn (blockNotes block) = [] := by
  refine List.filterMap_eq_nil_iff.2 fun note member => ?_
  simp only [blockNotes, List.mem_append, List.mem_map] at member
  rcases member with ⟨r, -, rfl⟩ | ⟨tx, -, rfl⟩ <;> rfl

theorem orderedIn_blockNotes (block : OrchestratorShardBlock) :
    orderedIn (blockNotes block) = block.ctToOrder := by
  simp [blockNotes, orderedIn, List.filterMap_map]

theorem accepted_notMem_blockNotes {block : OrchestratorShardBlock} {txID : TxID} {s : Int}
    {v : Bool} : Note.accepted txID s v ∉ blockNotes block := by
  simp [blockNotes]

theorem decided_mem_blockNotes {block : OrchestratorShardBlock} {txID : TxID} {commit : Bool} :
    Note.decided txID commit ∈ blockNotes block ↔ block.tpcResult.lookup txID = some commit := by
  rw [← Option.mem_def, AList.mem_lookup_iff]
  simp [blockNotes]

/-- Why a decision about `txID` may be published. -/
inductive Justified (J : List Note) (txID : TxID) : Bool → Prop
  | commit (tx : CrossShardTx) (before after : List Note)
      (split : J = before ++ .ordered tx :: after) (same : tx.id = txID)
      (yes : ∀ s ∈ tx.involvedShards, .accepted txID s true ∈ after)
      (no : ∀ s, .accepted txID s false ∉ J) : Justified J txID true
  | refused (s : Int) (no : .accepted txID s false ∈ J) : Justified J txID false
  | expired (timeout : .timedOut txID ∈ J) : Justified J txID false

theorem Justified.append {J K : List Note} {txID : TxID} {commit : Bool}
    (justified : Justified J txID commit) (no : ∀ s, .accepted txID s false ∉ K) :
    Justified (J ++ K) txID commit := by
  cases justified with
  | commit tx before after split same yes none =>
      refine .commit tx before (after ++ K) (by simp [split]) same ?_ ?_
      · intro s involved
        exact List.mem_append_left _ (yes s involved)
      · intro s member
        exact (List.mem_append.1 member).elim (none s) (no s)
  | refused s no => exact .refused s (List.mem_append_left _ no)
  | expired timeout => exact .expired (List.mem_append_left _ timeout)

/-! ## The invariant -/

/-- What the chain keeps about a transaction that awaits votes. -/
structure Waiting (J : List Note) (c : OrchestratorChain) (txID : TxID) (tx : CrossShardTx) :
    Prop where
  same : tx.id = txID
  expected : c.expectedVoters.get txID = some tx.involvedShards
  started : (c.voteStartBlock.get txID).isSome
  unrefused : ∀ s, .accepted txID s false ∉ J
  yes : ∃ before after, J = before ++ .ordered tx :: after ∧
    ∀ s v, (c.votesOn txID).get s = some v → v = true ∧ .accepted txID s true ∈ after

/-- The IDs of all places. -/
def OrchestratorChain.placedIDs (c : OrchestratorChain) : List TxID :=
  c.pendingTxs.map CrossShardTx.id ++ c.awaitingVotes.keys ++ c.pendingResult.keys ++
    c.blocks.flatMap fun b => b.tpcResult.keys

structure Tracked (J : List Note) (c : OrchestratorChain) : Prop where
  order : orderedIn J ++ c.pendingTxs = addedIn J
  blocks : orderedIn J = c.blocks.flatMap OrchestratorShardBlock.ctToOrder
  placed : ((addedIn J).map CrossShardTx.id).Perm c.placedIDs
  waiting : ∀ txID tx, c.awaitingVotes.lookup txID = some tx → Waiting J c txID tx
  expected : ∀ txID, (c.expectedVoters.get txID).isSome → txID ∈ c.awaitingVotes
  started : ∀ txID, (c.voteStartBlock.get txID).isSome → txID ∈ c.awaitingVotes
  voted : ∀ txID, (c.votes.get txID).isSome → txID ∈ c.awaitingVotes
  resulted : ∀ txID commit, c.pendingResult.lookup txID = some commit →
    Justified J txID commit ∧ ∃ tx ∈ orderedIn J, tx.id = txID
  heard : ∀ txID s v, .accepted txID s v ∈ J → ∃ tx ∈ orderedIn J, tx.id = txID
  decided : ∀ before txID commit after, J = before ++ .decided txID commit :: after →
    Justified before txID commit
  published : ∀ txID commit, .decided txID commit ∈ J ↔
    ∃ block ∈ c.blocks, block.tpcResult.lookup txID = some commit
  later : ∀ before block after, c.blocks = before ++ block :: after → ∀ txID ∈ block.tpcResult,
    ∃ tx ∈ before.flatMap OrchestratorShardBlock.ctToOrder, tx.id = txID

theorem tracked_start : Tracked [] OrchestratorChain.newOrchestratorChain where
  order := rfl
  blocks := rfl
  placed := List.Perm.refl []
  waiting txID tx found := by cases found
  expected := by simp [OrchestratorChain.newOrchestratorChain]
  started := by simp [OrchestratorChain.newOrchestratorChain]
  voted := by simp [OrchestratorChain.newOrchestratorChain]
  resulted := nofun
  heard := nofun
  decided := by simp
  published := by simp [OrchestratorChain.newOrchestratorChain]
  later := by
    intro before block after split txID member
    cases before with
    | nil =>
        cases split
        cases member
    | cons first before => simp [OrchestratorChain.newOrchestratorChain] at split

section Step

variable {J : List Note} {c : OrchestratorChain}

/-- A transaction that awaits votes is in no other place. -/
theorem Tracked.only_awaiting (tracked : Tracked J c)
    (distinct : ((addedIn J).map CrossShardTx.id).Nodup) {txID : TxID}
    (awaiting : txID ∈ c.awaitingVotes) :
    txID ∉ c.pendingTxs.map CrossShardTx.id ∧ txID ∉ c.pendingResult := by
  have nodup := tracked.placed.nodup_iff.1 distinct
  unfold OrchestratorChain.placedIDs at nodup
  have first := (List.nodup_append.1 nodup).1
  have second := (List.nodup_append.1 first).1
  constructor
  · intro pending
    exact (List.nodup_append.1 second).2.2 txID pending txID awaiting rfl
  · intro resulted
    exact (List.nodup_append.1 first).2.2 txID (List.mem_append_right _ awaiting) txID resulted rfl

/-- A decision in a longer journal is an old one, unless it is new. -/
theorem split_of_append {K before after : List Note} {note : Note}
    (split : J ++ K = before ++ note :: after) (old : note ∉ K) :
    ∃ after', J = before ++ note :: after' := by
  rcases List.append_eq_append_iff.1 split with ⟨more, rfl, tail⟩ | ⟨more, rfl, tail⟩
  · exact absurd (by simp [tail]) old
  · cases more with
    | nil => exact absurd (by simp [← show note :: after = K from tail]) old
    | cons first more =>
        obtain ⟨rfl, -⟩ := List.cons_eq_cons.1 tail
        exact ⟨more, rfl⟩

/-- A vote or a timeout neither adds, orders nor decides anything. -/
def Silent (note : Note) : Prop :=
  addedIn [note] = [] ∧ orderedIn [note] = [] ∧ ∀ txID commit, note ≠ .decided txID commit

theorem silent_accepted (txID : TxID) (s : Int) (v : Bool) : Silent (.accepted txID s v) :=
  ⟨rfl, rfl, nofun⟩

theorem silent_timedOut (txID : TxID) : Silent (.timedOut txID) := ⟨rfl, rfl, nofun⟩

theorem Tracked.decided_silent (tracked : Tracked J c) {note : Note} (silent : Silent note) :
    ∀ before txID commit after, J ++ [note] = before ++ .decided txID commit :: after →
      Justified before txID commit := by
  intro before txID commit after split
  obtain ⟨after', old⟩ := split_of_append split (by
    intro member
    exact silent.2.2 txID commit (List.mem_singleton.1 member).symm)
  exact tracked.decided before txID commit after' old

/-- Later notes without a NO leave a waiting transaction waiting. -/
theorem Waiting.append {c' : OrchestratorChain} {K : List Note} {txID : TxID} {tx : CrossShardTx}
    (waiting : Waiting J c txID tx) (no : ∀ s, .accepted txID s false ∉ K)
    (expected : c'.expectedVoters.get txID = c.expectedVoters.get txID)
    (started : c'.voteStartBlock.get txID = c.voteStartBlock.get txID)
    (votes : c'.votes.get txID = c.votes.get txID) : Waiting (J ++ K) c' txID tx := by
  obtain ⟨before, after, split, yes⟩ := waiting.yes
  refine ⟨waiting.same, expected.trans waiting.expected, started ▸ waiting.started, ?_,
    before, after ++ K, by simp [split], ?_⟩
  · intro s member
    exact (List.mem_append.1 member).elim (waiting.unrefused s) (no s)
  · intro s v found
    rw [OrchestratorChain.votesOn, votes] at found
    obtain ⟨positive, accepted⟩ := yes s v found
    exact ⟨positive, List.mem_append_left _ accepted⟩

theorem Tracked.queued (tracked : Tracked J c) (tx : CrossShardTx) :
    Tracked (J ++ [.added tx]) (c.addTransaction tx) where
  order := by
    have order := tracked.order
    simp only [orderedIn_append, addedIn_append, ← order, OrchestratorChain.addTransaction]
    simp [orderedIn, addedIn]
  blocks := by
    rw [orderedIn_append]
    exact (List.append_nil _).trans tracked.blocks
  placed := by
    have grown := tracked.placed.append_right [tx.id]
    rw [addedIn_append, List.map_append]
    refine grown.trans ?_
    show (OrchestratorChain.placedIDs c ++ [tx.id]).Perm
      ((c.pendingTxs ++ [tx]).map CrossShardTx.id ++ c.awaitingVotes.keys ++
        c.pendingResult.keys ++ c.blocks.flatMap fun b => b.tpcResult.keys)
    unfold OrchestratorChain.placedIDs
    simp only [List.map_append, List.map_cons, List.map_nil, List.append_assoc]
    refine List.Perm.append_left _ ?_
    rw [← List.append_assoc, ← List.append_assoc]
    refine List.perm_append_comm.trans ?_
    simp
  waiting txID tx' found := (tracked.waiting txID tx' found).append (by simp) rfl rfl rfl
  expected := tracked.expected
  started := tracked.started
  voted := tracked.voted
  resulted txID commit found := by
    obtain ⟨justified, ordered⟩ := tracked.resulted txID commit found
    exact ⟨justified.append (by simp), by simpa [orderedIn] using ordered⟩
  heard txID s v member := by
    have old := tracked.heard txID s v (by simpa using member)
    simpa [orderedIn] using old
  decided before txID commit after split := by
    obtain ⟨after', old⟩ := split_of_append split (by simp)
    exact tracked.decided before txID commit after' old
  published txID commit := Iff.trans (by simp) (tracked.published txID commit)
  later := tracked.later

theorem Tracked.retimed (tracked : Tracked J c) (blocks : Nat) :
    Tracked J (c.setVoteTimeout blocks) where
  order := tracked.order
  blocks := tracked.blocks
  placed := tracked.placed
  waiting txID tx found := by
    obtain ⟨same, expected, started, unrefused, yes⟩ := tracked.waiting txID tx found
    exact ⟨same, expected, started, unrefused, yes⟩
  expected := tracked.expected
  started := tracked.started
  voted := tracked.voted
  resulted := tracked.resulted
  heard := tracked.heard
  decided := tracked.decided
  published := tracked.published
  later := tracked.later

/-- What a waiting transaction shows when it is settled. -/
theorem Tracked.ordered_of_awaiting (tracked : Tracked J c) {txID : TxID}
    (awaiting : txID ∈ c.awaitingVotes) :
    ∃ tx, Waiting J c txID tx ∧ tx ∈ orderedIn J := by
  obtain ⟨tx, found⟩ := Option.isSome_iff_exists.1 (AList.lookup_isSome.2 awaiting)
  have waiting := tracked.waiting txID tx found
  obtain ⟨before, after, rfl, -⟩ := waiting.yes
  exact ⟨tx, waiting, by simp [orderedIn]⟩

theorem Tracked.heard_silent (tracked : Tracked J c) {note : Note} (silent : Silent note)
    {txID : TxID} (awaiting : txID ∈ c.awaitingVotes)
    (about : ∀ x s v, note = .accepted x s v → x = txID) :
    ∀ x s v, .accepted x s v ∈ J ++ [note] → ∃ tx ∈ orderedIn (J ++ [note]), tx.id = x := by
  intro x s v member
  rw [orderedIn_append, silent.2.1, List.append_nil]
  rcases List.mem_append.1 member with old | new
  · exact tracked.heard x s v old
  · have own := about x s v (List.mem_singleton.1 new).symm
    obtain ⟨tx, waiting, ordered⟩ := tracked.ordered_of_awaiting awaiting
    exact ⟨tx, ordered, waiting.same.trans own.symm⟩

/-- One more YES. -/
theorem Tracked.cast (tracked : Tracked J c) {txID : TxID} (shardID : Int)
    (awaiting : txID ∈ c.awaitingVotes) :
    Tracked (J ++ [.accepted txID shardID true])
      { c with votes := c.votes.set txID ((c.votesOn txID).set shardID true) } := by
  have silent := silent_accepted txID shardID true
  have ordered_same : orderedIn (J ++ [.accepted txID shardID true]) = orderedIn J := by
    rw [orderedIn_append, silent.2.1, List.append_nil]
  have added_same : addedIn (J ++ [.accepted txID shardID true]) = addedIn J := by
    rw [addedIn_append, silent.1, List.append_nil]
  refine ⟨?_, ?_, ?_, ?_, tracked.expected, tracked.started, ?_, ?_,
    tracked.heard_silent silent awaiting ?_, tracked.decided_silent silent, ?_, tracked.later⟩
  · rw [ordered_same, added_same]
    exact tracked.order
  · rw [ordered_same]
    exact tracked.blocks
  · rw [added_same]
    exact tracked.placed
  · intro x tx found
    have waiting := tracked.waiting x tx found
    by_cases own : x = txID
    · subst own
      obtain ⟨before, after, split, yes⟩ := waiting.yes
      refine ⟨waiting.same, waiting.expected, waiting.started, ?_, before,
        after ++ [.accepted x shardID true], by simp [split], ?_⟩
      · intro s member
        exact waiting.unrefused s (by simpa using member)
      · intro s v cast
        have entry : ((c.votesOn x).set shardID true).get s = some v := by
          simpa [OrchestratorChain.votesOn] using cast
        rw [FMap.get_set] at entry
        split at entry
        · rename_i same
          subst same
          cases entry
          exact ⟨rfl, by simp⟩
        · obtain ⟨positive, accepted⟩ := yes s v entry
          exact ⟨positive, List.mem_append_left _ accepted⟩
    · exact waiting.append (by simp) rfl rfl (by simp [own])
  · intro x some_votes
    by_cases own : x = txID
    · exact own ▸ awaiting
    · exact tracked.voted x (by simpa [own] using some_votes)
  · intro x commit found
    obtain ⟨justified, ordered⟩ := tracked.resulted x commit found
    exact ⟨justified.append (by simp), ordered_same.symm ▸ ordered⟩
  · rintro x s v ⟨⟩
    rfl
  · intro x commit
    exact Iff.trans (by simp) (tracked.published x commit)

/-- The end of a vote. -/
theorem Tracked.settle (tracked : Tracked J c)
    (distinct : ((addedIn J).map CrossShardTx.id).Nodup) {txID : TxID} {commit : Bool}
    (awaiting : txID ∈ c.awaitingVotes) {note : Note} (silent : Silent note)
    (about : ∀ x s v, note = .accepted x s v → x = txID)
    (justified : Justified (J ++ [note]) txID commit) :
    Tracked (J ++ [note]) (c.settle txID commit) := by
  have ordered_same : orderedIn (J ++ [note]) = orderedIn J := by
    rw [orderedIn_append, silent.2.1, List.append_nil]
  have added_same : addedIn (J ++ [note]) = addedIn J := by
    rw [addedIn_append, silent.1, List.append_nil]
  have elsewhere : ∀ x, x ≠ txID → ∀ s, .accepted x s false ∉ [note] := by
    intro x other s member
    exact other (about x s false (List.mem_singleton.1 member).symm)
  refine ⟨?_, ?_, ?_, ?_, ?_, ?_, ?_, ?_, tracked.heard_silent silent awaiting about,
    tracked.decided_silent silent, ?_, tracked.later⟩
  · rw [ordered_same, added_same]
    exact tracked.order
  · rw [ordered_same]
    exact tracked.blocks
  · rw [added_same]
    refine tracked.placed.trans ?_
    have gone := keys_erase_perm awaiting
    have come := keys_insert_perm (tracked.only_awaiting distinct awaiting).2 commit
    refine List.Perm.append_right _ ?_
    show (c.pendingTxs.map CrossShardTx.id ++ c.awaitingVotes.keys ++ c.pendingResult.keys).Perm
      (c.pendingTxs.map CrossShardTx.id ++ (c.awaitingVotes.erase txID).keys ++
        (c.pendingResult.insert txID commit).keys)
    rw [List.append_assoc, List.append_assoc]
    refine List.Perm.append_left _ ?_
    refine (gone.append_right _).trans ?_
    refine List.Perm.trans ?_ (come.symm.append_left _)
    exact List.perm_middle.symm
  · intro x tx found
    have found' : (c.awaitingVotes.erase txID).lookup x = some tx := found
    rw [lookup_erase_ite] at found'
    split at found'
    · cases found'
    · rename_i other
      refine (tracked.waiting x tx found').append (elsewhere x other) ?_ ?_ ?_ <;>
        simp [OrchestratorChain.settle, other]
  · intro x present
    obtain ⟨other, before⟩ := FMap.isSome_get_delete.1 present
    exact OrchestratorChain.mem_awaiting_settle.2 ⟨other, tracked.expected x before⟩
  · intro x present
    obtain ⟨other, before⟩ := FMap.isSome_get_delete.1 present
    exact OrchestratorChain.mem_awaiting_settle.2 ⟨other, tracked.started x before⟩
  · intro x present
    obtain ⟨other, before⟩ := FMap.isSome_get_delete.1 present
    exact OrchestratorChain.mem_awaiting_settle.2 ⟨other, tracked.voted x before⟩
  · intro x decision found
    rw [ordered_same]
    have found' : (c.pendingResult.insert txID commit).lookup x = some decision := found
    rw [lookup_insert_ite] at found'
    split at found'
    · rename_i own
      cases found'
      obtain ⟨tx, waiting, ordered⟩ := tracked.ordered_of_awaiting awaiting
      exact ⟨own ▸ justified, tx, ordered, waiting.same.trans own.symm⟩
    · rename_i other
      obtain ⟨reason, ordered⟩ := tracked.resulted x decision found'
      exact ⟨reason.append (elsewhere x other), ordered⟩
  · intro x decision
    refine Iff.trans ?_ (tracked.published x decision)
    rw [List.mem_append, List.mem_singleton]
    exact or_iff_left (silent.2.2 x decision).symm

/-- The last YES justifies a commit. -/
theorem Tracked.agreed (tracked : Tracked J c) {txID : TxID} {shardID : Int}
    (awaiting : txID ∈ c.awaitingVotes)
    (all : ∀ s ∈ (c.expectedVoters.get txID).getD [],
      s = shardID ∨ ((c.votesOn txID).get s).isSome) :
    Justified (J ++ [.accepted txID shardID true]) txID true := by
  obtain ⟨tx, waiting, -⟩ := tracked.ordered_of_awaiting awaiting
  obtain ⟨before, after, split, yes⟩ := waiting.yes
  refine .commit tx before (after ++ [.accepted txID shardID true]) (by simp [split]) waiting.same
    ?_ ?_
  · intro s involved
    rcases all s (by simpa [waiting.expected] using involved) with rfl | voted
    · simp
    · obtain ⟨v, found⟩ := Option.isSome_iff_exists.1 voted
      exact List.mem_append_left _ (yes s v found).2
  · intro s member
    exact waiting.unrefused s (by simpa using member)

/-! ### A block -/

/-- The last of `txs` with the given ID, which is the one that a map keeps. -/
def lastWith (txID : TxID) (txs : List CrossShardTx) : Option CrossShardTx :=
  txs.reverse.find? fun tx => tx.id = txID

theorem lastWith_concat (txID : TxID) (txs : List CrossShardTx) (tx : CrossShardTx) :
    lastWith txID (txs ++ [tx]) = if txID = tx.id then some tx else lastWith txID txs := by
  unfold lastWith
  rw [List.reverse_append, List.reverse_singleton, List.singleton_append, List.find?_cons]
  by_cases own : tx.id = txID
  · simp [own]
  · simp [own, Ne.symm own]

theorem lastWith_eq_some {txID : TxID} {txs : List CrossShardTx} {tx : CrossShardTx}
    (found : lastWith txID txs = some tx) : tx ∈ txs ∧ tx.id = txID := by
  refine ⟨List.mem_reverse.1 (List.mem_of_find?_eq_some found), ?_⟩
  simpa using List.find?_some found

/-- The maps after the loop over the pending transactions. -/
structure Awaited (newHeight : Nat) (c : OrchestratorChain) (txs : List CrossShardTx)
    (c' : OrchestratorChain) : Prop where
  awaiting : ∀ x, c'.awaitingVotes.lookup x = (lastWith x txs).or (c.awaitingVotes.lookup x)
  expected : ∀ x, c'.expectedVoters.get x =
    ((lastWith x txs).map CrossShardTx.involvedShards).or (c.expectedVoters.get x)
  started : ∀ x, c'.voteStartBlock.get x =
    ((lastWith x txs).map fun _ => newHeight).or (c.voteStartBlock.get x)
  votes : c'.votes = c.votes

theorem awaited_foldl (newHeight : Nat) (c : OrchestratorChain) (txs : List CrossShardTx) :
    Awaited newHeight c txs (txs.foldl (OrchestratorChain.await newHeight) c) := by
  induction txs using List.reverseRecOn with
  | nil => exact ⟨fun _ => rfl, fun _ => rfl, fun _ => rfl, rfl⟩
  | append_singleton txs tx ih =>
      rw [List.foldl_append]
      generalize txs.foldl (OrchestratorChain.await newHeight) c = d at ih
      refine ⟨?_, ?_, ?_, ih.votes⟩
      · intro x
        show (d.awaitingVotes.insert tx.id tx).lookup x = _
        rw [lastWith_concat, lookup_insert_ite, ih.awaiting]
        split <;> rfl
      · intro x
        show (d.expectedVoters.set tx.id tx.involvedShards).get x = _
        rw [lastWith_concat, FMap.get_set, ih.expected]
        split <;> rfl
      · intro x
        show (d.voteStartBlock.set tx.id newHeight).get x = _
        rw [lastWith_concat, FMap.get_set, ih.started]
        split <;> rfl

/-- Distinct new IDs are so many new keys. -/
theorem keys_awaited (newHeight : Nat) (c : OrchestratorChain) (txs : List CrossShardTx)
    (distinct : (txs.map CrossShardTx.id ++ c.awaitingVotes.keys).Nodup) :
    (txs.foldl (OrchestratorChain.await newHeight) c).awaitingVotes.keys.Perm
      (txs.map CrossShardTx.id ++ c.awaitingVotes.keys) := by
  induction txs generalizing c with
  | nil => exact List.Perm.refl _
  | cons tx txs ih =>
      have parts := List.nodup_cons.1 distinct
      have absent : tx.id ∉ c.awaitingVotes := by
        intro member
        exact parts.1 (List.mem_append_right _ member)
      have keys : (OrchestratorChain.await newHeight c tx).awaitingVotes.keys.Perm
          (tx.id :: c.awaitingVotes.keys) := keys_insert_perm absent tx
      have moved : (txs.map CrossShardTx.id ++
          (OrchestratorChain.await newHeight c tx).awaitingVotes.keys).Perm
          (tx.id :: (txs.map CrossShardTx.id ++ c.awaitingVotes.keys)) :=
        (keys.append_left _).trans List.perm_middle
      exact (ih _ (moved.nodup_iff.2 distinct)).trans moved

/-- A pending transaction was neither ordered nor voted on. -/
theorem Tracked.pending_unheard (tracked : Tracked J c)
    (distinct : ((addedIn J).map CrossShardTx.id).Nodup) {tx : CrossShardTx}
    (pending : tx ∈ c.pendingTxs) :
    (∀ s v, .accepted tx.id s v ∉ J) ∧ c.votes.get tx.id = none := by
  constructor
  · intro s v member
    obtain ⟨t, ordered, same⟩ := tracked.heard tx.id s v member
    rw [← tracked.order, List.map_append] at distinct
    exact (List.nodup_append.1 distinct).2.2 t.id (List.mem_map_of_mem ordered) tx.id
      (List.mem_map_of_mem pending) same
  · by_contra present
    have awaiting := tracked.voted tx.id (Option.isSome_iff_ne_none.2 present)
    exact (tracked.only_awaiting distinct awaiting).1 (List.mem_map_of_mem pending)

/-- A new block starts the votes on what it orders. -/
theorem Tracked.waiting_emitted (tracked : Tracked J c)
    (distinct : ((addedIn J).map CrossShardTx.id).Nodup) {txID : TxID} {tx : CrossShardTx}
    (found : c.emit.2.awaitingVotes.lookup txID = some tx) :
    Waiting (J ++ blockNotes c.emit.1) c.emit.2 txID tx := by
  have loop := awaited_foldl ((c.height + 1) % 2 ^ 64) c c.pendingTxs
  have votes : c.emit.2.votes = c.votes := loop.votes
  have expected : c.emit.2.expectedVoters.get txID = _ := loop.expected txID
  have started : c.emit.2.voteStartBlock.get txID = _ := loop.started txID
  have awaiting : c.emit.2.awaitingVotes.lookup txID = _ := loop.awaiting txID
  rw [awaiting] at found
  cases last : lastWith txID c.pendingTxs with
  | none =>
      rw [last, Option.none_or] at found
      rw [last, Option.map_none, Option.none_or] at expected started
      refine (tracked.waiting txID tx found).append ?_ expected started (by rw [votes])
      intro s
      exact accepted_notMem_blockNotes
  | some t =>
      rw [last, Option.some_or] at found
      cases found
      obtain ⟨pending, rfl⟩ := lastWith_eq_some last
      obtain ⟨unheard, unvoted⟩ := tracked.pending_unheard distinct pending
      rw [last] at expected started
      refine ⟨rfl, expected, by simp [started], ?_, ?_⟩
      · intro s member
        exact (List.mem_append.1 member).elim (unheard s false) accepted_notMem_blockNotes
      · have told : Note.ordered tx ∈ J ++ blockNotes c.emit.1 := by
          refine List.mem_append_right _ (List.mem_append_right _ ?_)
          exact List.mem_map_of_mem pending
        obtain ⟨before, after, split⟩ := List.append_of_mem told
        refine ⟨before, after, split, ?_⟩
        intro s v cast
        simp [OrchestratorChain.votesOn, votes, unvoted] at cast

theorem Tracked.placed_emitted (tracked : Tracked J c)
    (distinct : ((addedIn J).map CrossShardTx.id).Nodup) :
    c.placedIDs.Perm c.emit.2.placedIDs := by
  have nodup := tracked.placed.nodup_iff.1 distinct
  have first := (List.nodup_append.1 (List.nodup_append.1 nodup).1).1
  have keys := keys_awaited ((c.height + 1) % 2 ^ 64) c c.pendingTxs first
  have shape : c.emit.2.placedIDs =
      (c.pendingTxs.foldl (OrchestratorChain.await ((c.height + 1) % 2 ^ 64)) c).awaitingVotes.keys
        ++ ((c.blocks.flatMap fun b => b.tpcResult.keys) ++ c.pendingResult.keys) := by
    show [] ++ _ ++ [] ++ (c.blocks ++ [_]).flatMap _ = _
    simp [OrchestratorChain.emit]
  rw [shape]
  unfold OrchestratorChain.placedIDs
  rw [List.append_assoc]
  exact (List.perm_append_comm.append_left _).trans (keys.symm.append_right _)

/-- **A block** publishes the results and orders what was pending. -/
theorem Tracked.emitted (tracked : Tracked J c)
    (distinct : ((addedIn J).map CrossShardTx.id).Nodup) :
    Tracked (J ++ blockNotes c.emit.1) c.emit.2 := by
  have loop := awaited_foldl ((c.height + 1) % 2 ^ 64) c c.pendingTxs
  have ordered : orderedIn (J ++ blockNotes c.emit.1) = orderedIn J ++ c.pendingTxs := by
    rw [orderedIn_append, orderedIn_blockNotes]
    rfl
  have added : addedIn (J ++ blockNotes c.emit.1) = addedIn J := by
    rw [addedIn_append, addedIn_blockNotes, List.append_nil]
  have awaiting : ∀ x, x ∈ c.emit.2.awaitingVotes ↔
      (lastWith x c.pendingTxs).isSome ∨ x ∈ c.awaitingVotes := by
    intro x
    have found : c.emit.2.awaitingVotes.lookup x = _ := loop.awaiting x
    rw [← AList.lookup_isSome, found, Option.isSome_or, Bool.or_eq_true, AList.lookup_isSome]
  refine ⟨?_, ?_, ?_, fun txID tx found => tracked.waiting_emitted distinct found, ?_, ?_, ?_,
    nofun, ?_, ?_, ?_, ?_⟩
  · rw [ordered, added]
    exact (List.append_nil _).trans tracked.order
  · rw [ordered, tracked.blocks]
    show _ = (c.blocks ++ [c.emit.1]).flatMap _
    rw [List.flatMap_append, List.flatMap_singleton]
    rfl
  · rw [added]
    exact tracked.placed.trans (tracked.placed_emitted distinct)
  · intro x present
    have found : c.emit.2.expectedVoters.get x = _ := loop.expected x
    rw [found, Option.isSome_or, Bool.or_eq_true, Option.isSome_map] at present
    exact (awaiting x).2 (present.imp_right (tracked.expected x))
  · intro x present
    have found : c.emit.2.voteStartBlock.get x = _ := loop.started x
    rw [found, Option.isSome_or, Bool.or_eq_true, Option.isSome_map] at present
    exact (awaiting x).2 (present.imp_right (tracked.started x))
  · intro x present
    have votes : c.emit.2.votes = c.votes := loop.votes
    rw [votes] at present
    exact (awaiting x).2 (Or.inr (tracked.voted x present))
  · intro x s v member
    rcases List.mem_append.1 member with old | new
    · obtain ⟨tx, listed, same⟩ := tracked.heard x s v old
      exact ⟨tx, ordered ▸ List.mem_append_left _ listed, same⟩
    · exact absurd new accepted_notMem_blockNotes
  · intro before x commit after split
    rcases List.append_eq_append_iff.1 split with ⟨more, rfl, tail⟩ | ⟨more, rfl, tail⟩
    · -- the decision is one of this block
      have told : Note.decided x commit ∈ blockNotes c.emit.1 := by simp [tail]
      obtain ⟨justified, -⟩ := tracked.resulted x commit (decided_mem_blockNotes.1 told)
      apply justified.append
      intro s member
      have unheard : Note.accepted x s false ∉ blockNotes c.emit.1 := accepted_notMem_blockNotes
      exact unheard (tail ▸ List.mem_append_left _ member)
    · cases more with
      | nil =>
          have told : Note.decided x commit ∈ blockNotes c.emit.1 := by
            simp [← show _ = blockNotes c.emit.1 from tail]
          rw [List.append_nil] at tracked
          exact (tracked.resulted x commit (decided_mem_blockNotes.1 told)).1
      | cons note more =>
          obtain ⟨rfl, -⟩ := List.cons_eq_cons.1 tail
          exact tracked.decided before x commit more rfl
  · intro x commit
    rw [List.mem_append, tracked.published, decided_mem_blockNotes]
    show _ ↔ ∃ block ∈ c.blocks ++ [c.emit.1], _
    simp [or_and_right, exists_or]
  · intro before block after split x member
    have split' : c.blocks ++ [c.emit.1] = before ++ block :: after := split
    rcases List.eq_nil_or_concat after with rfl | ⟨rest, last, rfl⟩
    · obtain ⟨rfl, same⟩ := List.append_inj' split' rfl
      cases same
      obtain ⟨commit, found⟩ := Option.isSome_iff_exists.1 (AList.lookup_isSome.2 member)
      obtain ⟨-, tx, listed, same⟩ := tracked.resulted x commit found
      exact ⟨tx, tracked.blocks ▸ listed, same⟩
    · have older : c.blocks = before ++ block :: rest := by
        rw [List.concat_eq_append, ← List.cons_append, ← List.append_assoc] at split'
        exact (List.append_inj' split' rfl).1
      exact tracked.later before block rest older x member

/-- **One change.** -/
theorem Tracked.move {c' : OrchestratorChain} {notes : List Note} (tracked : Tracked J c)
    (move : Move c notes c') (distinct : ((addedIn J).map CrossShardTx.id).Nodup) :
    Tracked (J ++ notes) c' := by
  cases move with
  | queued tx => exact tracked.queued tx
  | retimed blocks =>
      rw [List.append_nil]
      exact tracked.retimed blocks
  | cast txID shardID awaiting => exact tracked.cast shardID awaiting
  | refused txID shardID awaiting =>
      apply tracked.settle distinct awaiting (silent_accepted txID shardID false)
      · rintro x s v ⟨⟩
        rfl
      · exact .refused shardID (by simp)
  | agreed txID shardID awaiting all =>
      apply tracked.settle distinct awaiting (silent_accepted txID shardID true)
      · rintro x s v ⟨⟩
        rfl
      · exact tracked.agreed awaiting all
  | expired txID awaiting =>
      apply tracked.settle distinct awaiting (silent_timedOut txID)
      · exact nofun
      · exact .expired (by simp)
  | emitted => exact tracked.emitted distinct

theorem Tracked.moves {c' : OrchestratorChain} {notes : List Note} (moves : Moves c notes c')
    (tracked : Tracked J c) (distinct : ((addedIn (J ++ notes)).map CrossShardTx.id).Nodup) :
    Tracked (J ++ notes) c' := by
  induction moves generalizing J with
  | refl c =>
      rw [List.append_nil]
      exact tracked
  | cons first rest ih =>
      rw [← List.append_assoc] at distinct ⊢
      have before := nodup_addedIn_left (nodup_addedIn_left distinct)
      exact ih (tracked.move first before) distinct

/-- **Every run.** -/
theorem Tracked.after (tracked : Tracked J c) (ops : List Op)
    (distinct : ((addedIn (J ++ c.journal ops)).map CrossShardTx.id).Nodup) :
    Tracked (J ++ c.journal ops) (c.after ops) := by
  induction ops generalizing J c with
  | nil =>
      rw [OrchestratorChain.journal, List.append_nil]
      exact tracked
  | cons op ops ih =>
      rw [OrchestratorChain.journal, ← List.append_assoc] at distinct ⊢
      exact ih (tracked.moves (c.moves_of_apply op) (nodup_addedIn_left distinct)) distinct

end Step

/-! ## The lifecycle -/

/-- The transactions that a list of calls adds, in order. -/
def added (ops : List Op) : List CrossShardTx :=
  ops.filterMap fun
    | .addTransaction tx => some tx
    | _ => none

/-- The transactions added between block and block, and those added since. -/
def batch (batches : List (List CrossShardTx) × List CrossShardTx) :
    Op → List (List CrossShardTx) × List CrossShardTx
  | .addTransaction tx => (batches.1, batches.2 ++ [tx])
  | .produceBlock => (batches.1 ++ [batches.2], [])
  | _ => batches

def batches (ops : List Op) : List (List CrossShardTx) × List CrossShardTx := ops.foldl batch ([], [])

theorem addedIn_timeouts (txIDs : List TxID) : addedIn (txIDs.map .timedOut) = [] := by
  simp [addedIn, List.filterMap_map]

theorem addedIn_journal (c : OrchestratorChain) (ops : List Op) :
    addedIn (c.journal ops) = added ops := by
  induction ops generalizing c with
  | nil => rfl
  | cons op ops ih =>
      rw [OrchestratorChain.journal, addedIn_append, ih]
      cases op with
      | addTransaction tx => rfl
      | recordVote txID shardID canCommit =>
          simp only [OrchestratorChain.notes]
          split <;> rfl
      | checkTimeouts =>
          rw [OrchestratorChain.notes, addedIn_timeouts]
          rfl
      | setVoteTimeout blocks => rfl
      | produceBlock =>
          rw [OrchestratorChain.notes, addedIn_append, addedIn_timeouts, addedIn_blockNotes]
          rfl

theorem batch_apply {c : OrchestratorChain} {closed : List (List CrossShardTx)} (op : Op)
    (blocks : c.blocks.map OrchestratorShardBlock.ctToOrder = [] :: closed) :
    (c.apply op).blocks.map OrchestratorShardBlock.ctToOrder =
        [] :: (batch (closed, c.pendingTxs) op).1 ∧
      (c.apply op).pendingTxs = (batch (closed, c.pendingTxs) op).2 := by
  cases op with
  | addTransaction tx => exact ⟨blocks, rfl⟩
  | recordVote txID shardID canCommit =>
      obtain ⟨same, queue⟩ := c.frame_recordVote txID shardID canCommit
      exact ⟨(congrArg (List.map _) same).trans blocks, queue⟩
  | checkTimeouts =>
      obtain ⟨same, queue⟩ := c.frame_checkTimeouts
      exact ⟨(congrArg (List.map _) same).trans blocks, queue⟩
  | setVoteTimeout n => exact ⟨blocks, rfl⟩
  | produceBlock =>
      obtain ⟨same, queue⟩ := c.frame_checkTimeouts
      refine ⟨?_, rfl⟩
      show ((c.checkTimeouts.2).blocks ++ [c.produceBlock.1]).map _ = _
      rw [same, List.map_append, blocks, List.map_singleton]
      show _ ++ [c.checkTimeouts.2.pendingTxs] = _
      rw [queue]
      rfl

theorem batches_after (ops : List Op) :
    (OrchestratorChain.newOrchestratorChain.after ops).blocks.map OrchestratorShardBlock.ctToOrder =
        [] :: (batches ops).1 ∧
      (OrchestratorChain.newOrchestratorChain.after ops).pendingTxs = (batches ops).2 := by
  induction ops using List.reverseRecOn with
  | nil => exact ⟨rfl, rfl⟩
  | append_singleton ops op ih =>
      obtain ⟨blocks, queue⟩ := ih
      have next := batch_apply op blocks
      rw [queue] at next
      have split : batches (ops ++ [op]) = batch (batches ops) op := by
        simp [batches, List.foldl_append]
      have split' : OrchestratorChain.newOrchestratorChain.after (ops ++ [op]) =
          (OrchestratorChain.newOrchestratorChain.after ops).apply op := by
        simp [OrchestratorChain.after, List.foldl_append]
      rw [split, split']
      exact next

/-- What holds of the chain `c` after the calls `ops`. -/
structure Lifecycle (ops : List Op) (c : OrchestratorChain) : Prop where
  /-- Each block orders exactly what was added since the one before, in order. -/
  fifo : c.blocks.map OrchestratorShardBlock.ctToOrder = [] :: (batches ops).1 ∧
    c.pendingTxs = (batches ops).2
  /-- Each added transaction is in exactly one place, once. -/
  place : ∀ tx ∈ added ops,
    (c.pendingTxs.map CrossShardTx.id).count tx.id + c.awaitingVotes.keys.count tx.id +
      c.pendingResult.keys.count tx.id +
      (c.blocks.flatMap fun b => b.tpcResult.keys).count tx.id = 1
  /-- The block that decides a transaction is later than the one that orders it. -/
  later : ∀ before block after, c.blocks = before ++ block :: after → ∀ tx ∈ added ops,
    tx.id ∈ block.tpcResult → tx ∈ before.flatMap OrchestratorShardBlock.ctToOrder
  keys : ∀ txID, (txID ∈ c.awaitingVotes ↔ (c.expectedVoters.get txID).isSome) ∧
    (txID ∈ c.awaitingVotes ↔ (c.voteStartBlock.get txID).isSome) ∧
    ((c.votes.get txID).isSome → txID ∈ c.awaitingVotes)
  yes : ∀ txID cast s v, c.votes.get txID = some cast → cast.get s = some v → v = true
  /-- The journal publishes what the blocks decide. -/
  published : ∀ txID commit,
    .decided txID commit ∈ OrchestratorChain.newOrchestratorChain.journal ops ↔
      ∃ block ∈ c.blocks, block.tpcResult.lookup txID = some commit
  commits : ∀ before txID after,
    OrchestratorChain.newOrchestratorChain.journal ops = before ++ .decided txID true :: after →
    ∃ tx earlier between, before = earlier ++ .ordered tx :: between ∧ tx.id = txID ∧
      (∀ s ∈ tx.involvedShards, .accepted txID s true ∈ between) ∧
      ∀ s, .accepted txID s false ∉ before
  aborts : ∀ before txID after,
    OrchestratorChain.newOrchestratorChain.journal ops = before ++ .decided txID false :: after →
    (∃ s, .accepted txID s false ∈ before) ∨ .timedOut txID ∈ before

/-- **The lifecycle of a transaction**, in every run that adds no ID twice. -/
theorem transaction_lifecycle (ops : List Op) (distinct : ((added ops).map CrossShardTx.id).Nodup) :
    Lifecycle ops (OrchestratorChain.newOrchestratorChain.after ops) := by
  rw [← addedIn_journal OrchestratorChain.newOrchestratorChain] at distinct
  have tracked := tracked_start.after ops distinct
  rw [List.nil_append] at tracked
  have all := addedIn_journal OrchestratorChain.newOrchestratorChain ops
  refine ⟨batches_after ops, ?_, ?_, ?_, ?_, tracked.published, ?_, ?_⟩
  · intro tx member
    rw [← all] at member
    have once := List.count_eq_one_of_mem distinct (List.mem_map_of_mem member)
    rw [tracked.placed.count_eq] at once
    simpa only [OrchestratorChain.placedIDs, List.count_append] using once
  · intro before block after split tx member decided
    obtain ⟨t, listed, same⟩ := tracked.later before block after split tx.id decided
    have known : t ∈ addedIn (OrchestratorChain.newOrchestratorChain.journal ops) := by
      rw [← tracked.order, tracked.blocks, split, List.flatMap_append]
      exact List.mem_append_left _ (List.mem_append_left _ listed)
    rw [← all] at member
    rwa [← List.inj_on_of_nodup_map distinct known member same]
  · intro txID
    refine ⟨⟨?_, tracked.expected txID⟩, ⟨?_, tracked.started txID⟩, tracked.voted txID⟩
    · intro awaiting
      obtain ⟨tx, waiting, -⟩ := tracked.ordered_of_awaiting awaiting
      simp [waiting.expected]
    · intro awaiting
      obtain ⟨tx, waiting, -⟩ := tracked.ordered_of_awaiting awaiting
      exact waiting.started
  · intro txID cast s v found entry
    obtain ⟨tx, waiting, -⟩ := tracked.ordered_of_awaiting (tracked.voted txID (by simp [found]))
    obtain ⟨before, after, -, yes⟩ := waiting.yes
    exact (yes s v (by simp [OrchestratorChain.votesOn, found, entry])).1
  · intro before txID after split
    cases tracked.decided before txID true after split with
    | commit tx earlier between ordered same yes no =>
        exact ⟨tx, earlier, between, ordered, same, yes, no⟩
  · intro before txID after split
    cases tracked.decided before txID false after split with
    | refused s no => exact Or.inl ⟨s, no⟩
    | expired timeout => exact Or.inr timeout

namespace LifecyclePole

def alice : Address := 0x100
def carol : Address := 0x301

def payment (id : TxID) : CrossShardTx where
  id := id
  fromShard := 0
  fromAddr := alice
  toAddr := carol
  value := some 5
  rwSet := [⟨carol, ⟨1⟩, [], []⟩]

/-- Both shards agree to the first payment, one of them twice; shard 1 refuses the second. -/
def twoPayments : List Op :=
  [.addTransaction (payment "tx-1"), .addTransaction (payment "tx-2"), .produceBlock,
    .recordVote "tx-1" 1 true, .recordVote "tx-1" 1 false, .recordVote "tx-1" 0 true,
    .recordVote "tx-2" 1 false, .recordVote "tx-2" 0 true, .produceBlock]

end LifecyclePole

open LifecyclePole OrchestratorChain in
/-- One block orders both payments, the next one decides them. -/
theorem two_payments_decided :
    (newOrchestratorChain.after twoPayments).blocks.map OrchestratorShardBlock.ctToOrder =
        [[], [payment "tx-1", payment "tx-2"], []] ∧
      ((newOrchestratorChain.after twoPayments).blocks.map fun b => b.tpcResult.lookup "tx-1") =
        [none, none, some true] ∧
      ((newOrchestratorChain.after twoPayments).blocks.map fun b => b.tpcResult.lookup "tx-2") =
        [none, none, some false] ∧
      ∀ s, Note.accepted "tx-1" s false ∉ newOrchestratorChain.journal twoPayments := by
  have lifecycle := transaction_lifecycle twoPayments (by decide)
  refine ⟨lifecycle.fifo.1.trans (by decide), by decide +kernel, by decide +kernel, ?_⟩
  -- the journal ends with the block that decides both
  have journal : newOrchestratorChain.journal twoPayments =
      (newOrchestratorChain.journal twoPayments).take 8 ++
        .decided "tx-1" true :: (newOrchestratorChain.journal twoPayments).drop 9 := by
    decide +kernel
  obtain ⟨-, -, -, -, -, -, no⟩ := lifecycle.commits _ _ _ journal
  intro s member
  rw [journal] at member
  have rest : (newOrchestratorChain.journal twoPayments).drop 9 = [] := by decide +kernel
  rw [rest] at member
  rcases List.mem_append.1 member with before | last
  · exact no s before
  · cases List.mem_singleton.1 last

end CrossShard.Orchestrator
