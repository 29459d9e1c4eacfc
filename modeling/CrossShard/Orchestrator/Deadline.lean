/-
# Orchestrator.Deadline -- votes time out exactly on the deadline

A transaction that block `h` orders starts its vote at height `h`.  `checkTimeouts` runs before
the height is incremented and compares with `h` plus the timeout `T`, so block `h + T + 1` is the
first one that can abort for a timeout, and it does so for every vote that is still open.

* `Timed`: start heights are heights of blocks, and no open vote is past its deadline.
* `Timed.apply`: one operation.
* `timeout_on_the_deadline`: every run with a fixed timeout.
-/
import CrossShard.Orchestrator.VoteOrder

namespace CrossShard.Orchestrator

set_option autoImplicit false

open CrossShard.Library CrossShard.Protocol

/-- A block of the chain orders a transaction of this ID, and its deadline is `deadline`. -/
def DueAt (T : Nat) (c : OrchestratorChain) (txID : TxID) (deadline : Nat) : Prop :=
  ∃ block ∈ c.blocks, ∃ tx ∈ block.ctToOrder, tx.id = txID ∧ block.height + T = deadline

/-- The start heights and the timeouts of the chain `c` after the journal `J`. -/
structure Timed (T : Nat) (J : List Note) (c : OrchestratorChain) : Prop where
  timeout : c.voteTimeout = T
  height : c.height + 1 = c.blocks.length
  bounded : ∀ block ∈ c.blocks, block.height ≤ c.height
  open_vote : ∀ txID, txID ∈ c.awaitingVotes → ∃ start, c.voteStartBlock.get txID = some start ∧
    start ≤ c.height ∧ c.height ≤ start + T ∧ DueAt T c txID (start + T)
  expired : ∀ txID, .timedOut txID ∈ J → ∃ deadline ≤ c.height, DueAt T c txID deadline
  late : ∀ block ∈ c.blocks, ∀ txID, block.tpcResult.lookup txID = some false →
    (∃ s, .accepted txID s false ∈ J) ∨ ∃ deadline < block.height, DueAt T c txID deadline

/-! ## Uniqueness of the deadline -/

section Deadline

variable {J : List Note} {c : OrchestratorChain} {T : Nat}

theorem Tracked.ordered_nodup (tracked : Tracked J c)
    (distinct : ((addedIn J).map CrossShardTx.id).Nodup) :
    ((c.blocks.flatMap OrchestratorShardBlock.ctToOrder).map CrossShardTx.id).Nodup := by
  rw [← tracked.order, List.map_append, tracked.blocks] at distinct
  exact (List.nodup_append.1 distinct).1

/-- Only one block orders an ID. -/
theorem Tracked.same_block (tracked : Tracked J c)
    (distinct : ((addedIn J).map CrossShardTx.id).Nodup) {block block' : OrchestratorShardBlock}
    {tx tx' : CrossShardTx} (listed : block ∈ c.blocks) (ordered : tx ∈ block.ctToOrder)
    (listed' : block' ∈ c.blocks) (ordered' : tx' ∈ block'.ctToOrder) (same : tx'.id = tx.id) :
    block' = block := by
  have nodup := tracked.ordered_nodup distinct
  obtain ⟨before, after, split⟩ := List.append_of_mem listed
  rw [split, List.flatMap_append, List.flatMap_cons, List.map_append, List.map_append,
    List.nodup_append, List.nodup_append] at nodup
  obtain ⟨-, ⟨-, -, later⟩, earlier⟩ := nodup
  have here : tx.id ∈ block.ctToOrder.map CrossShardTx.id := List.mem_map_of_mem ordered
  have there : ∀ {blocks : List OrchestratorShardBlock}, block' ∈ blocks → tx'.id ∈
      (blocks.flatMap OrchestratorShardBlock.ctToOrder).map CrossShardTx.id := fun member =>
    List.mem_map_of_mem (List.mem_flatMap.2 ⟨block', member, ordered'⟩)
  rw [split, List.mem_append, List.mem_cons] at listed'
  rcases listed' with old | rfl | new
  · exact absurd same (earlier _ (there old) _ (List.mem_append_left _ here))
  · rfl
  · exact absurd same.symm (later _ here _ (there new))

theorem DueAt.eq {txID : TxID} {deadline : Nat} (due : DueAt T c txID deadline)
    (tracked : Tracked J c) (distinct : ((addedIn J).map CrossShardTx.id).Nodup)
    {block : OrchestratorShardBlock} {tx : CrossShardTx} (listed : block ∈ c.blocks)
    (ordered : tx ∈ block.ctToOrder) (same : tx.id = txID) : deadline = block.height + T := by
  obtain ⟨block', listed', tx', ordered', same', rfl⟩ := due
  rw [tracked.same_block distinct listed ordered listed' ordered' (same'.trans same.symm)]

theorem DueAt.of_blocks {c' : OrchestratorChain} {txID : TxID} {deadline : Nat}
    (due : DueAt T c txID deadline) (blocks : ∀ block ∈ c.blocks, block ∈ c'.blocks) :
    DueAt T c' txID deadline := by
  obtain ⟨block, listed, rest⟩ := due
  exact ⟨block, blocks block listed, rest⟩

end Deadline

/-! ## Steps -/

section Step

variable {T : Nat} {J : List Note} {c : OrchestratorChain}

theorem timed_start (T : Nat) (small : T < 2 ^ 64) :
    Timed T [] (OrchestratorChain.newOrchestratorChain.setVoteTimeout T) where
  timeout := Nat.mod_eq_of_lt small
  height := rfl
  bounded := by simp [OrchestratorChain.newOrchestratorChain, OrchestratorChain.setVoteTimeout]
  open_vote := nofun
  expired := nofun
  late block listed txID found := by
    have genesis : block = ⟨0, ∅, []⟩ := List.mem_singleton.1 listed
    rw [genesis] at found
    cases found

/-- A change that keeps the blocks, the height and the start heights of the votes that stay open. -/
theorem Timed.keep (timed : Timed T J c) {c' : OrchestratorChain} {K : List Note}
    (blocks : c'.blocks = c.blocks) (height : c'.height = c.height)
    (timeout : c'.voteTimeout = c.voteTimeout)
    (votes : ∀ txID, txID ∈ c'.awaitingVotes →
      txID ∈ c.awaitingVotes ∧ c'.voteStartBlock.get txID = c.voteStartBlock.get txID)
    (told : ∀ txID, .timedOut txID ∈ K → ∃ deadline ≤ c.height, DueAt T c txID deadline) :
    Timed T (J ++ K) c' := by
  have due : ∀ {txID deadline}, DueAt T c txID deadline → DueAt T c' txID deadline :=
    fun due => due.of_blocks fun block listed => by
      rw [blocks]
      exact listed
  refine ⟨timeout.trans timed.timeout, ?_, ?_, fun txID awaiting => ?_, fun txID member => ?_, ?_⟩
  · rw [height, blocks]
    exact timed.height
  · rw [height, blocks]
    exact timed.bounded
  · obtain ⟨before, same⟩ := votes txID awaiting
    obtain ⟨start, found, low, high, deadline⟩ := timed.open_vote txID before
    rw [same, height]
    exact ⟨start, found, low, high, due deadline⟩
  · have known : ∃ deadline ≤ c.height, DueAt T c txID deadline :=
      (List.mem_append.1 member).elim (timed.expired txID) (told txID)
    obtain ⟨deadline, reached, at_deadline⟩ := known
    exact ⟨deadline, height ▸ reached, due at_deadline⟩
  · rw [blocks]
    intro block listed txID found
    rcases timed.late block listed txID found with ⟨s, no⟩ | ⟨deadline, passed, at_deadline⟩
    · exact Or.inl ⟨s, List.mem_append_left _ no⟩
    · exact Or.inr ⟨deadline, passed, due at_deadline⟩

theorem Timed.settle (timed : Timed T J c) (txID : TxID) (commit : Bool) {K : List Note}
    (told : ∀ x, .timedOut x ∈ K → ∃ deadline ≤ c.height, DueAt T c x deadline) :
    Timed T (J ++ K) (c.settle txID commit) := by
  refine timed.keep rfl rfl rfl (fun x awaiting => ?_) told
  obtain ⟨other, before⟩ := OrchestratorChain.mem_awaiting_settle.1 awaiting
  exact ⟨before, by simp [OrchestratorChain.settle, other]⟩

theorem Timed.recordVote (timed : Timed T J c) (txID : TxID) (s : Int) (canCommit : Bool) :
    Timed T (J ++ c.notes (.recordVote txID s canCommit))
      (c.apply (.recordVote txID s canCommit)) := by
  have quiet : ∀ x, .timedOut x ∈ c.notes (.recordVote txID s canCommit) →
      ∃ deadline ≤ c.height, DueAt T c x deadline := by
    intro x member
    simp only [OrchestratorChain.notes] at member
    split at member <;> simp at member
  simp only [OrchestratorChain.apply]
  rw [OrchestratorChain.recordVote_eq]
  split
  · exact timed.keep rfl rfl rfl (fun _ awaiting => ⟨awaiting, rfl⟩) quiet
  · split
    · exact timed.settle txID false quiet
    · split
      · exact timed.settle txID true quiet
      · exact timed.keep rfl rfl rfl (fun _ awaiting => ⟨awaiting, rfl⟩) quiet

/-- Expiry, without the wrap of the counter. -/
theorem Timed.expired_iff (timed : Timed T J c) (bound : c.height + T < 2 ^ 64) {txID : TxID}
    {start : Nat} (found : c.voteStartBlock.get txID = some start) (low : start ≤ c.height) :
    c.expired txID = true ↔ start + T ≤ c.height := by
  unfold OrchestratorChain.expired
  rw [found, timed.timeout]
  have small : (start + T) % 2 ^ 64 = start + T := Nat.mod_eq_of_lt (by omega)
  simp only [small, decide_eq_true_eq]

theorem entry_expire (txIDs : List TxID) (c : OrchestratorChain) (x : TxID) :
    (txIDs.foldl (fun c txID => c.settle txID false) c).entry x =
      if x ∈ txIDs then .settled false else c.entry x := by
  induction txIDs generalizing c with
  | nil => rfl
  | cons txID txIDs ih =>
      rw [List.foldl_cons, ih, OrchestratorChain.entry_settle]
      by_cases later : x ∈ txIDs
      · simp [later]
      · by_cases own : x = txID <;> simp [later, own]

/-- What `checkTimeouts` does to one transaction. -/
theorem entry_checkTimeouts (c : OrchestratorChain) (x : TxID) :
    c.checkTimeouts.2.entry x =
      if x ∈ c.awaitingVotes ∧ c.expired x = true then .settled false else c.entry x := by
  have listed : x ∈ c.awaitingVotes.keys.filter c.expired ↔
      x ∈ c.awaitingVotes ∧ c.expired x = true := by
    rw [List.mem_filter, AList.mem_keys]
  rw [← if_congr listed rfl rfl]
  exact entry_expire _ c x

theorem height_checkTimeouts (c : OrchestratorChain) :
    c.checkTimeouts.2.height = c.height ∧ c.checkTimeouts.2.voteTimeout = c.voteTimeout := by
  have all : ∀ (txIDs : List TxID) (c : OrchestratorChain),
      (txIDs.foldl (fun c txID => c.settle txID false) c).height = c.height ∧
        (txIDs.foldl (fun c txID => c.settle txID false) c).voteTimeout = c.voteTimeout := by
    intro txIDs
    induction txIDs with
    | nil => exact fun c => ⟨rfl, rfl⟩
    | cons txID txIDs ih => exact fun c => ih (c.settle txID false)
  exact all _ c

/-- **`checkTimeouts`** closes exactly the votes that have reached their deadline. -/
theorem Timed.checkTimeouts (timed : Timed T J c) (bound : c.height + T < 2 ^ 64) :
    Timed T (J ++ c.checkTimeouts.1.map .timedOut) c.checkTimeouts.2 ∧
      ∀ txID, txID ∈ c.checkTimeouts.2.awaitingVotes → ∀ start,
        c.checkTimeouts.2.voteStartBlock.get txID = some start → c.height < start + T := by
  have kept : ∀ txID, txID ∈ c.checkTimeouts.2.awaitingVotes →
      txID ∈ c.awaitingVotes ∧ ¬c.expired txID = true ∧
        c.checkTimeouts.2.voteStartBlock.get txID = c.voteStartBlock.get txID := by
    intro txID awaiting
    have entry := entry_checkTimeouts c txID
    have present := AList.lookup_isSome.2 awaiting
    have lookup : c.checkTimeouts.2.awaitingVotes.lookup txID = _ :=
      congrArg Entry.awaitingVotes entry
    have start : c.checkTimeouts.2.voteStartBlock.get txID = _ :=
      congrArg Entry.voteStartBlock entry
    rw [lookup] at present
    split at present
    · cases present
    · rename_i stays
      have before : txID ∈ c.awaitingVotes := AList.lookup_isSome.1 present
      exact ⟨before, fun overdue => stays ⟨before, overdue⟩, by rw [start, if_neg stays]; rfl⟩
  have told : ∀ txID, .timedOut txID ∈ c.checkTimeouts.1.map Note.timedOut →
      ∃ deadline ≤ c.height, DueAt T c txID deadline := by
    intro txID member
    obtain ⟨x, listed, same⟩ := List.mem_map.1 member
    cases same
    obtain ⟨awaiting, overdue⟩ := List.mem_filter.1 listed
    obtain ⟨start, found, low, -, due⟩ := timed.open_vote txID (AList.mem_keys.2 awaiting)
    exact ⟨start + T, (timed.expired_iff bound found low).1 overdue, due⟩
  obtain ⟨height, timeout⟩ := height_checkTimeouts c
  refine ⟨timed.keep c.frame_checkTimeouts.1 height timeout (fun txID awaiting => ?_) told, ?_⟩
  · obtain ⟨before, -, start⟩ := kept txID awaiting
    exact ⟨before, start⟩
  · intro txID awaiting start found
    obtain ⟨before, running, same⟩ := kept txID awaiting
    obtain ⟨start', found', low, -, -⟩ := timed.open_vote txID before
    rw [same, found'] at found
    cases found
    rw [timed.expired_iff bound found' low] at running
    omega

theorem timeout_emit (c : OrchestratorChain) : c.emit.2.voteTimeout = c.voteTimeout := by
  have all : ∀ (newHeight : Nat) (txs : List CrossShardTx) (c : OrchestratorChain),
      (txs.foldl (OrchestratorChain.await newHeight) c).voteTimeout = c.voteTimeout := by
    intro newHeight txs
    induction txs with
    | nil => exact fun c => rfl
    | cons tx txs ih => exact fun c => ih (OrchestratorChain.await newHeight c tx)
  exact all _ c.pendingTxs c

/-- **A block** starts the votes on what it orders, and is late for what it aborts. -/
theorem Timed.emit (timed : Timed T J c) (tracked : Tracked J c)
    (running : ∀ txID, txID ∈ c.awaitingVotes → ∀ start,
      c.voteStartBlock.get txID = some start → c.height < start + T)
    (bound : c.height + 1 < 2 ^ 64) : Timed T (J ++ blockNotes c.emit.1) c.emit.2 := by
  have wrap : (c.height + 1) % 2 ^ 64 = c.height + 1 := Nat.mod_eq_of_lt bound
  have height : c.emit.2.height = c.height + 1 := wrap
  have number : c.emit.1.height = c.height + 1 := wrap
  have loop := awaited_foldl ((c.height + 1) % 2 ^ 64) c c.pendingTxs
  rw [wrap] at loop
  have lookup : ∀ x, c.emit.2.awaitingVotes.lookup x =
      (lastWith x c.pendingTxs).or (c.awaitingVotes.lookup x) := by
    intro x
    rw [← loop.awaiting, ← wrap]
    rfl
  have started : ∀ x, c.emit.2.voteStartBlock.get x =
      ((lastWith x c.pendingTxs).map fun _ => c.height + 1).or (c.voteStartBlock.get x) := by
    intro x
    rw [← loop.started, ← wrap]
    rfl
  have old : ∀ block ∈ c.blocks, block ∈ c.emit.2.blocks := fun block listed =>
    List.mem_append_left _ listed
  have cases_block : ∀ block ∈ c.emit.2.blocks, block ∈ c.blocks ∨ block = c.emit.1 :=
    fun block listed => (List.mem_append.1 listed).imp_right List.mem_singleton.1
  refine ⟨timed.timeout ▸ timeout_emit c, ?_, ?_, fun txID awaiting => ?_, fun txID member => ?_, ?_⟩
  · show c.emit.2.height + 1 = (c.blocks ++ [c.emit.1]).length
    rw [height, List.length_append, ← timed.height]
    rfl
  · intro block listed
    rw [height]
    rcases cases_block block listed with before | rfl
    · have := timed.bounded block before
      omega
    · exact number.le
  · rw [started, height]
    have present := AList.lookup_isSome.2 awaiting
    rw [lookup] at present
    cases new : lastWith txID c.pendingTxs with
    | some tx =>
        obtain ⟨pending, same⟩ := lastWith_eq_some new
        refine ⟨c.height + 1, rfl, le_rfl, by omega, c.emit.1, ?_, tx, pending, same, ?_⟩
        · exact List.mem_append_right _ List.mem_cons_self
        · rw [number]
    | none =>
        rw [new, Option.none_or] at present
        have before := AList.lookup_isSome.1 present
        obtain ⟨start, found, low, -, due⟩ := timed.open_vote txID before
        have time_left := running txID before start found
        exact ⟨start, found, by omega, by omega, due.of_blocks old⟩
  · rcases List.mem_append.1 member with before | new
    · obtain ⟨deadline, reached, due⟩ := timed.expired txID before
      exact ⟨deadline, by omega, due.of_blocks old⟩
    · simp [blockNotes] at new
  · intro block listed txID found
    rcases cases_block block listed with before | rfl
    · rcases timed.late block before txID found with ⟨s, no⟩ | ⟨deadline, passed, due⟩
      · exact Or.inl ⟨s, List.mem_append_left _ no⟩
      · exact Or.inr ⟨deadline, passed, due.of_blocks old⟩
    · cases (tracked.resulted txID false found).1 with
      | refused s no => exact Or.inl ⟨s, List.mem_append_left _ no⟩
      | expired overdue =>
          obtain ⟨deadline, reached, due⟩ := timed.expired txID overdue
          exact Or.inr ⟨deadline, by omega, due.of_blocks old⟩

/-- **One operation.** -/
theorem Timed.apply (timed : Timed T J c) (tracked : Tracked J c) (op : Op)
    (fixed : ∀ blocks, op ≠ .setVoteTimeout blocks)
    (distinct : ((addedIn (J ++ c.notes op)).map CrossShardTx.id).Nodup)
    (bound : (c.apply op).blocks.length + T < 2 ^ 64) : Timed T (J ++ c.notes op) (c.apply op) := by
  have numbered := timed.height
  cases op with
  | addTransaction tx =>
      exact timed.keep rfl rfl rfl (fun _ awaiting => ⟨awaiting, rfl⟩) (by simp [OrchestratorChain.notes])
  | recordVote txID s canCommit => exact timed.recordVote txID s canCommit
  | checkTimeouts =>
      have same : (c.apply .checkTimeouts).blocks = c.blocks := c.frame_checkTimeouts.1
      rw [same] at bound
      exact (timed.checkTimeouts (by omega)).1
  | setVoteTimeout blocks => exact absurd rfl (fixed blocks)
  | produceBlock =>
      have longer : (c.apply .produceBlock).blocks = c.blocks ++ [c.produceBlock.1] := by
        rw [← c.frame_checkTimeouts.1]
        rfl
      rw [longer, List.length_append, List.length_singleton] at bound
      obtain ⟨timed', running⟩ := timed.checkTimeouts (by omega)
      rw [OrchestratorChain.notes, ← List.append_assoc] at distinct
      have distinct' := nodup_addedIn_left distinct
      have tracked' := tracked.moves c.moves_checkTimeouts distinct'
      have height := (height_checkTimeouts c).1
      rw [OrchestratorChain.notes, ← List.append_assoc]
      refine timed'.emit tracked' ?_ (by omega)
      rw [height]
      exact running

end Step

/-! ## Runs -/

section Run

variable {T : Nat} {J : List Note} {c : OrchestratorChain}

theorem blocks_length_apply_le (c : OrchestratorChain) (op : Op) :
    c.blocks.length ≤ (c.apply op).blocks.length := by
  cases op with
  | addTransaction tx => exact le_rfl
  | recordVote txID s canCommit =>
      exact (congrArg List.length (c.frame_recordVote txID s canCommit).1).ge
  | checkTimeouts => exact (congrArg List.length c.frame_checkTimeouts.1).ge
  | setVoteTimeout blocks => exact le_rfl
  | produceBlock =>
      have longer : (c.apply .produceBlock).blocks = c.blocks ++ [c.produceBlock.1] := by
        rw [← c.frame_checkTimeouts.1]
        rfl
      rw [longer, List.length_append]
      exact Nat.le_add_right _ _

theorem blocks_length_after_le (c : OrchestratorChain) (ops : List Op) :
    c.blocks.length ≤ (c.after ops).blocks.length := by
  induction ops generalizing c with
  | nil => exact le_rfl
  | cons op ops ih => exact (blocks_length_apply_le c op).trans (ih (c.apply op))

/-- **Every run** with a fixed timeout. -/
theorem Timed.after (timed : Timed T J c) (tracked : Tracked J c) (ops : List Op)
    (fixed : ∀ blocks, .setVoteTimeout blocks ∉ ops)
    (distinct : ((addedIn (J ++ c.journal ops)).map CrossShardTx.id).Nodup)
    (bound : (c.after ops).blocks.length + T < 2 ^ 64) :
    Timed T (J ++ c.journal ops) (c.after ops) := by
  induction ops generalizing J c with
  | nil =>
      rw [OrchestratorChain.journal, List.append_nil]
      exact timed
  | cons op ops ih =>
      rw [OrchestratorChain.journal, ← List.append_assoc] at distinct ⊢
      have distinct' := nodup_addedIn_left distinct
      have shorter := blocks_length_after_le (c.apply op) ops
      have bound' : ((c.apply op).after ops).blocks.length + T < 2 ^ 64 := bound
      have here := timed.apply tracked op
        (fun blocks same => fixed blocks (same ▸ List.mem_cons_self)) distinct' (by omega)
      exact ih here (tracked.moves (c.moves_of_apply op) distinct')
        (fun blocks member => fixed blocks (List.mem_cons_of_mem _ member)) distinct bound'

/-- Where an ordered transaction that not everybody agreed to can be. -/
theorem Tracked.undecided (tracked : Tracked J c)
    (distinct : ((addedIn J).map CrossShardTx.id).Nodup) {block : OrchestratorShardBlock}
    {tx : CrossShardTx} (listed : block ∈ c.blocks) (ordered : tx ∈ block.ctToOrder)
    (open_vote : ∃ s ∈ tx.involvedShards, .accepted tx.id s true ∉ J) :
    tx.id ∈ c.awaitingVotes ∨ c.pendingResult.lookup tx.id = some false ∨
      ∃ block' ∈ c.blocks, block'.tpcResult.lookup tx.id = some false := by
  have known : tx ∈ orderedIn J := by
    rw [tracked.blocks]
    exact List.mem_flatMap.2 ⟨block, listed, ordered⟩
  have added : tx ∈ addedIn J := by
    rw [← tracked.order]
    exact List.mem_append_left _ known
  -- nobody can have decided to commit
  have aborted : ∀ {J' : List Note} {commit : Bool}, (∀ note ∈ J', note ∈ J) →
      Justified J' tx.id commit → commit = false := by
    intro J' commit part justified
    cases justified with
    | commit tx' before after split same yes no =>
        obtain ⟨s, voter, missing⟩ := open_vote
        have member : tx' ∈ addedIn J := by
          rw [← tracked.order]
          refine List.mem_append_left _ (List.mem_filterMap.2 ⟨.ordered tx', part _ ?_, rfl⟩)
          rw [split]
          exact List.mem_append_right _ List.mem_cons_self
        rw [List.inj_on_of_nodup_map distinct member added same] at yes
        refine absurd (part _ ?_) missing
        rw [split]
        exact List.mem_append_right _ (List.mem_cons_of_mem _ (yes s voter))
    | refused s no => rfl
    | expired timeout => rfl
  have placed := tracked.placed.mem_iff.1 (List.mem_map_of_mem (f := CrossShardTx.id) added)
  simp only [OrchestratorChain.placedIDs, List.mem_append] at placed
  rcases placed with ((pending | awaiting) | resulted) | decided
  · rw [← tracked.order, List.map_append] at distinct
    exact absurd rfl ((List.nodup_append.1 distinct).2.2 _ (List.mem_map_of_mem known) _ pending)
  · exact Or.inl (AList.mem_keys.2 awaiting)
  · obtain ⟨commit, found⟩ := Option.isSome_iff_exists.1
      (AList.lookup_isSome.2 (AList.mem_keys.2 resulted))
    rw [aborted (fun _ member => member) (tracked.resulted tx.id commit found).1] at found
    exact Or.inr (Or.inl found)
  · obtain ⟨block', listed', member⟩ := List.mem_flatMap.1 decided
    obtain ⟨commit, found⟩ := Option.isSome_iff_exists.1
      (AList.lookup_isSome.2 (AList.mem_keys.2 member))
    obtain ⟨before, after, split⟩ := List.append_of_mem
      ((tracked.published tx.id commit).2 ⟨block', listed', found⟩)
    have part : ∀ note ∈ before, note ∈ J := fun note member => by
      rw [split]
      exact List.mem_append_left _ member
    rw [aborted part (tracked.decided before tx.id commit after split)] at found
    exact Or.inr (Or.inr ⟨block', listed', found⟩)

end Run

open OrchestratorChain in
/-- **Timeouts fire exactly on the deadline.**  In every run with a fixed timeout `T` and distinct
IDs, for a transaction that a block of height `h` orders: while it awaits votes the height is at
most `h + T`; if nobody has refused and somebody has not agreed, block `h + T + 1` aborts it; and a
block up to `h + T` aborts it only if somebody has refused. -/
theorem timeout_on_the_deadline (T : Nat) (ops : List Op)
    (fixed : ∀ blocks, .setVoteTimeout blocks ∉ ops)
    (distinct : ((added ops).map CrossShardTx.id).Nodup)
    (bound : ((newOrchestratorChain.setVoteTimeout T).after ops).blocks.length + T < 2 ^ 64) :
    let c := (newOrchestratorChain.setVoteTimeout T).after ops
    let J := (newOrchestratorChain.setVoteTimeout T).journal ops
    ∀ block ∈ c.blocks, ∀ tx ∈ block.ctToOrder,
      (tx.id ∈ c.awaitingVotes → c.height ≤ block.height + T) ∧
      (c.produceBlock.1.height = block.height + T + 1 →
        (∀ s, .accepted tx.id s false ∉ J) →
        (∃ s ∈ tx.involvedShards, .accepted tx.id s true ∉ J) →
        c.produceBlock.1.tpcResult.lookup tx.id = some false) ∧
      (c.produceBlock.1.height ≤ block.height + T →
        c.produceBlock.1.tpcResult.lookup tx.id = some false →
        ∃ s, .accepted tx.id s false ∈ J) := by
  intro c J block listed tx ordered
  rw [← addedIn_journal (newOrchestratorChain.setVoteTimeout T)] at distinct
  have tracked : Tracked J c := (tracked_start.retimed T).after ops distinct
  have timed : Timed T J c := (timed_start T (by omega)).after (tracked_start.retimed T) ops fixed
    distinct bound
  have bound' : c.blocks.length + T < 2 ^ 64 := bound
  have numbered := timed.height
  have height : c.produceBlock.1.height = c.height + 1 := by
    show (c.checkTimeouts.2.height + 1) % 2 ^ 64 = c.height + 1
    rw [(height_checkTimeouts c).1]
    exact Nat.mod_eq_of_lt (by omega)
  have result : c.produceBlock.1.tpcResult.lookup tx.id = _ :=
    congrArg Entry.pendingResult (entry_checkTimeouts c tx.id)
  refine ⟨fun awaiting => ?_, fun now unrefused open_vote => ?_, fun early aborted => ?_⟩
  · obtain ⟨start, -, -, high, due⟩ := timed.open_vote tx.id awaiting
    rw [← due.eq tracked distinct listed ordered rfl]
    exact high
  · rw [result]
    split
    · rfl
    · rename_i stays
      show c.pendingResult.lookup tx.id = some false
      rcases tracked.undecided distinct listed ordered open_vote with
        awaiting | resulted | ⟨block', listed', found⟩
      · -- an open vote has reached its deadline
        obtain ⟨start, found, low, -, due⟩ := timed.open_vote tx.id awaiting
        have deadline := due.eq tracked distinct listed ordered rfl
        exact absurd ⟨awaiting, (timed.expired_iff (by omega) found low).2 (by omega)⟩ stays
      · exact resulted
      · -- an earlier block cannot have aborted
        rcases timed.late block' listed' tx.id found with ⟨s, no⟩ | ⟨deadline, passed, due⟩
        · exact absurd no (unrefused s)
        · have same := due.eq tracked distinct listed ordered rfl
          have last := timed.bounded block' listed'
          omega
  · have distinct' : ((addedIn (J ++ c.checkTimeouts.1.map .timedOut)).map
        CrossShardTx.id).Nodup := by
      rw [addedIn_append, addedIn_timeouts, List.append_nil]
      exact distinct
    have tracked' := tracked.moves c.moves_checkTimeouts distinct'
    have timed' := (timed.checkTimeouts (by omega)).1
    cases (tracked'.resulted tx.id false aborted).1 with
    | refused s no =>
        refine ⟨s, (List.mem_append.1 no).resolve_right ?_⟩
        simp
    | expired overdue =>
        obtain ⟨deadline, reached, due⟩ := timed'.expired tx.id overdue
        have blocks := c.frame_checkTimeouts.1
        rw [(height_checkTimeouts c).1] at reached
        have same := DueAt.eq (due.of_blocks fun block listed => blocks ▸ listed) tracked distinct
          listed ordered rfl
        omega

namespace DeadlinePole

open LifecyclePole

/-- One of two shards agrees, and nobody hears of the other one. -/
def slow : List Op :=
  [.addTransaction (payment "tx-1"), .produceBlock, .recordVote "tx-1" 1 true, .produceBlock,
    .checkTimeouts]

def stalled : OrchestratorChain := (OrchestratorChain.newOrchestratorChain.setVoteTimeout 1).after slow

end DeadlinePole

open OrchestratorChain LifecyclePole DeadlinePole in
/-- Ordered in block 1 with a timeout of 1: block 3 aborts. -/
theorem slow_vote_aborted_on_time :
    stalled.produceBlock.1.height = 3 ∧
      stalled.produceBlock.1.tpcResult.lookup "tx-1" = some false := by
  have journal : (newOrchestratorChain.setVoteTimeout 1).journal slow =
      [.added (payment "tx-1"), .ordered (payment "tx-1"), .accepted "tx-1" 1 true,
        .timedOut "tx-1"] := by
    decide +kernel
  have height : stalled.produceBlock.1.height = 3 := by decide +kernel
  have blocks : stalled.blocks = [⟨0, ∅, []⟩, ⟨1, ∅, [payment "tx-1"]⟩, ⟨2, ∅, []⟩] := rfl
  have ordered : ⟨1, ∅, [payment "tx-1"]⟩ ∈ stalled.blocks := by simp [blocks]
  obtain ⟨-, aborts, -⟩ := timeout_on_the_deadline 1 slow (by simp [slow]) (by decide)
    (by decide +kernel) _ ordered (payment "tx-1") List.mem_cons_self
  rw [journal] at aborts
  refine ⟨height, aborts height (fun s => ?_) ⟨0, by decide, ?_⟩⟩
  · simp
  · simp

end CrossShard.Orchestrator
