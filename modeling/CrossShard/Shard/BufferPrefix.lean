/-
# Shard.BufferPrefix -- the buffer delivers the longest contiguous prefix

Orchestrator blocks arrive in any order, more than once, and with gaps; a full buffer drops
them.  What the buffer has returned so far is still determined by the blocks that it accepted:
the first accepted block of each height, from the first height on, up to the least height that
was never accepted.

* `History`: the buffer, what it accepted and what it returned.
* `History.processed`: one call.
* `buffer_delivers_longest_prefix`: every sequence of calls.
-/
import Mathlib.Order.Interval.Finset.Nat
import CrossShard.Library.Run
import CrossShard.Shard.BlockBuffer

namespace CrossShard.Shard

set_option autoImplicit false

open CrossShard.Library CrossShard.Protocol

namespace BlockBuffer

/-! ## Arrivals -/

/-- The arrival has the expected height, or is above it while there is room. -/
def Accepts (b : BlockBuffer) (block : OrchestratorShardBlock) : Prop :=
  block.height = b.expected ∨ b.expected < block.height ∧ b.buffered.len < b.maxBuffer

instance (b : BlockBuffer) (block : OrchestratorShardBlock) : Decidable (b.Accepts block) :=
  inferInstanceAs (Decidable (_ ∨ _))

/-- The arrivals that were accepted. -/
def accepted : BlockBuffer → List OrchestratorShardBlock → List OrchestratorShardBlock
  | _, [] => []
  | b, block :: rest =>
      (if b.Accepts block then [block] else []) ++ accepted (b.processBlock block).2 rest

/-- The lists that the calls return, one after the other. -/
def returned (b : BlockBuffer) (arrivals : List OrchestratorShardBlock) :
    List OrchestratorShardBlock :=
  ((answers processBlock b arrivals).map fun ready => ready.getD []).flatten

/-- The buffer after the calls. -/
def after (b : BlockBuffer) (arrivals : List OrchestratorShardBlock) : BlockBuffer :=
  answered processBlock b arrivals

theorem accepted_append (b : BlockBuffer) (first rest : List OrchestratorShardBlock) :
    b.accepted (first ++ rest) = b.accepted first ++ (b.after first).accepted rest := by
  induction first generalizing b with
  | nil => rfl
  | cons block first ih =>
      rw [List.cons_append, accepted, accepted, ih, List.append_assoc]
      rfl

/-- The first block of that height. -/
def firstAt (blocks : List OrchestratorShardBlock) (height : Nat) : Option OrchestratorShardBlock :=
  blocks.find? fun block => block.height = height

theorem firstAt_append_of_some {blocks more : List OrchestratorShardBlock} {height : Nat}
    {block : OrchestratorShardBlock} (first : firstAt blocks height = some block) :
    firstAt (blocks ++ more) height = some block := by
  unfold firstAt at first ⊢
  rw [List.find?_append, first, Option.some_or]

theorem firstAt_concat_of_fresh {blocks : List OrchestratorShardBlock}
    {block : OrchestratorShardBlock} (fresh : ∀ b ∈ blocks, b.height ≠ block.height) :
    firstAt (blocks ++ [block]) block.height = some block := by
  have none_before : blocks.find? (fun b => b.height = block.height) = none :=
    List.find?_eq_none.2 fun b member => by simpa using fresh b member
  unfold firstAt
  rw [List.find?_append, none_before, Option.none_or, List.find?_cons_of_pos (by simp)]

theorem mem_of_firstAt {blocks : List OrchestratorShardBlock} {height : Nat}
    {block : OrchestratorShardBlock} (first : firstAt blocks height = some block) :
    block ∈ blocks ∧ block.height = height :=
  ⟨List.mem_of_find?_eq_some first, by simpa using List.find?_some first⟩

/-! ## What the buffer knows about its history -/

/-- A moment of the drain loop: what was accepted is returned or buffered, each height once and
with its first accepted block. -/
structure History (start : Nat) (accepted returned : List OrchestratorShardBlock)
    (b : BlockBuffer) : Prop where
  room : b.buffered.len ≤ b.maxBuffer
  started : start ≤ b.expected
  sequence : returned.map (·.height) = List.range' start (b.expected - start)
  first : ∀ block ∈ returned, firstAt accepted block.height = some block
  waiting : ∀ height block, b.buffered.get height = some block →
    b.expected ≤ height ∧ height < 2 ^ 64 - 1 ∧ firstAt accepted height = some block
  known : ∀ block ∈ accepted, start ≤ block.height ∧
    (block.height < b.expected ∨ b.buffered.get block.height ≠ none)

section Step

variable {start : Nat} {acc ret : List OrchestratorShardBlock} {b b' : BlockBuffer}
  {block : OrchestratorShardBlock}

theorem history_newBlockBuffer (start : Nat) {maxBuffer : Int} (capacity : 0 ≤ maxBuffer) :
    History start [] [] (newBlockBuffer start maxBuffer) where
  room := by
    have empty : (∅ : FMap Nat OrchestratorShardBlock).len = 0 := FMap.len_eq_zero.2 fun _ => rfl
    show ((∅ : FMap Nat OrchestratorShardBlock).len : Int) ≤ maxBuffer
    omega
  started := le_rfl
  sequence := by
    show [] = List.range' start (start - start)
    rw [Nat.sub_self]
    rfl
  first := nofun
  waiting _ _ := nofun
  known := nofun

/-- The next height in sequence. -/
theorem History.sequence_concat (history : History start acc ret b)
    (height : block.height = b.expected) :
    (ret ++ [block]).map (·.height) = List.range' start (b.expected + 1 - start) := by
  have started := history.started
  have one_more : b.expected + 1 - start = b.expected - start + 1 := by omega
  have last : start + (b.expected - start) = b.expected := by omega
  rw [one_more, List.range'_1_concat, last, List.map_append, history.sequence, List.map_cons,
    List.map_nil, height]

/-- One turn of the loop. -/
theorem History.release (history : History start acc ret b)
    (found : b.buffered.get b.expected = some block) :
    History start acc (ret ++ [block])
      { b with buffered := b.buffered.delete b.expected, expected := nextHeight b.expected } := by
  obtain ⟨-, bound, first⟩ := history.waiting _ _ found
  have height := (mem_of_firstAt first).2
  have advanced := nextHeight_of_lt bound
  have started := history.started
  have fewer := FMap.len_delete (m := b.buffered) (k := b.expected) (by simp [found])
  have room := history.room
  rw [advanced]
  refine ⟨?_, ?_, history.sequence_concat height, ?_, ?_, ?_⟩
  · show ((b.buffered.delete b.expected).len : Int) ≤ b.maxBuffer
    omega
  · show start ≤ b.expected + 1
    omega
  · intro block' member
    rcases List.mem_append.1 member with old | new
    · exact history.first block' old
    · rw [List.mem_singleton.1 new, height]
      exact first
  · intro h block' listed
    rw [FMap.get_delete] at listed
    split at listed
    · cases listed
    · rename_i other
      obtain ⟨above, below, first'⟩ := history.waiting h block' listed
      refine ⟨?_, below, first'⟩
      show b.expected + 1 ≤ h
      omega
  · intro block' member
    obtain ⟨from_start, place⟩ := history.known block' member
    refine ⟨from_start, ?_⟩
    show block'.height < b.expected + 1 ∨ (b.buffered.delete b.expected).get block'.height ≠ none
    rw [FMap.get_delete]
    split
    · left
      omega
    · rcases place with below | kept
      · exact Or.inl (by omega)
      · exact Or.inr kept

theorem History.releases {released : List OrchestratorShardBlock}
    (history : History start acc ret b) (done : Releases b released b') :
    History start acc (ret ++ released) b' := by
  induction done generalizing ret with
  | stop b =>
      rw [List.append_nil]
      exact history
  | @next b b' block released found rest ih =>
      have more := ih (history.release found)
      rw [List.append_assoc] at more
      exact more

/-- Nothing of the expected height was accepted. -/
theorem History.expected_fresh (history : History start acc ret b)
    (stopped : b.buffered.get b.expected = none) : ∀ block ∈ acc, block.height ≠ b.expected := by
  intro block member height
  obtain ⟨-, below | kept⟩ := history.known block member
  · omega
  · rw [height] at kept
    exact kept stopped

/-- The expected block arrives, and is returned before the loop starts. -/
theorem History.arrive (history : History start acc ret b)
    (stopped : b.buffered.get b.expected = none) (next : block.height = b.expected)
    (bound : block.height < 2 ^ 64 - 1) :
    History start (acc ++ [block]) (ret ++ [block])
      { b with expected := nextHeight b.expected } := by
  have fresh := history.expected_fresh stopped
  have started := history.started
  have advanced := nextHeight_of_lt bound
  rw [next] at advanced
  rw [advanced]
  refine ⟨history.room, ?_, history.sequence_concat next, ?_, ?_, ?_⟩
  · show start ≤ b.expected + 1
    omega
  · intro block' member
    rcases List.mem_append.1 member with old | new
    · exact firstAt_append_of_some (history.first block' old)
    · rw [List.mem_singleton.1 new]
      refine firstAt_concat_of_fresh ?_
      rw [next]
      exact fresh
  · intro h block' listed
    obtain ⟨above, below, first⟩ := history.waiting h block' listed
    refine ⟨?_, below, firstAt_append_of_some first⟩
    have other : h ≠ b.expected := by
      rintro rfl
      have listed' : b.buffered.get b.expected = some block' := listed
      rw [stopped] at listed'
      cases listed'
    show b.expected + 1 ≤ h
    omega
  · intro block' member
    show _ ∧ (block'.height < b.expected + 1 ∨ _)
    rcases List.mem_append.1 member with old | new
    · obtain ⟨from_start, place⟩ := history.known block' old
      exact ⟨from_start, place.imp_left fun below => by omega⟩
    · rw [List.mem_singleton.1 new, next]
      exact ⟨started, Or.inl (by omega)⟩

/-- A block above the expected height is stored. -/
theorem History.store (history : History start acc ret b) (early : b.expected < block.height)
    (room : b.buffered.len < b.maxBuffer) (absent : b.buffered.get block.height = none)
    (bound : block.height < 2 ^ 64 - 1) :
    History start (acc ++ [block]) ret
      { b with buffered := b.buffered.set block.height block } := by
  have started := history.started
  have fresh : ∀ block' ∈ acc, block'.height ≠ block.height := by
    intro block' member height
    obtain ⟨-, below | kept⟩ := history.known block' member
    · omega
    · rw [height] at kept
      exact kept absent
  refine ⟨?_, started, history.sequence, ?_, ?_, ?_⟩
  · have one_more := b.buffered.len_set_le block.height block
    show ((b.buffered.set block.height block).len : Int) ≤ b.maxBuffer
    omega
  · exact fun block' member => firstAt_append_of_some (history.first block' member)
  · intro h block' listed
    rw [FMap.get_set] at listed
    split at listed
    · rename_i same
      cases listed
      rw [same]
      exact ⟨early.le, bound, firstAt_concat_of_fresh fresh⟩
    · obtain ⟨above, below, first⟩ := history.waiting h block' listed
      exact ⟨above, below, firstAt_append_of_some first⟩
  · intro block' member
    show _ ∧ (_ ∨ (b.buffered.set block.height block).get block'.height ≠ none)
    rw [FMap.get_set]
    rcases List.mem_append.1 member with old | new
    · obtain ⟨from_start, place⟩ := history.known block' old
      refine ⟨from_start, place.imp_right fun kept => ?_⟩
      split
      · exact Option.some_ne_none _
      · exact kept
    · rw [List.mem_singleton.1 new, if_pos rfl]
      exact ⟨by omega, Or.inr (Option.some_ne_none _)⟩

/-- A second block for a height that is buffered already counts as accepted and is forgotten. -/
theorem History.repeat (history : History start acc ret b) (early : b.expected < block.height)
    (present : b.buffered.get block.height ≠ none) : History start (acc ++ [block]) ret b where
  room := history.room
  started := history.started
  sequence := history.sequence
  first block' member := firstAt_append_of_some (history.first block' member)
  waiting h block' listed := by
    obtain ⟨above, below, first⟩ := history.waiting h block' listed
    exact ⟨above, below, firstAt_append_of_some first⟩
  known block' member := by
    have started := history.started
    rcases List.mem_append.1 member with old | new
    · exact history.known block' old
    · rw [List.mem_singleton.1 new]
      exact ⟨by omega, Or.inr present⟩

/-- Between two calls: the loop has stopped. -/
structure Settled (start : Nat) (accepted returned : List OrchestratorShardBlock)
    (b : BlockBuffer) : Prop extends History start accepted returned b where
  stopped : b.buffered.get b.expected = none

/-- **One call.** -/
theorem Settled.processed {ready : Option (List OrchestratorShardBlock)}
    (settled : Settled start acc ret b) (bound : block.height < 2 ^ 64 - 1)
    (done : Processed b block ready b') :
    Settled start (acc ++ if b.Accepts block then [block] else []) (ret ++ ready.getD []) b' := by
  have history := settled.toHistory
  cases done with
  | @ready next released b' rest stopped =>
      have accepts : b.Accepts block := Or.inl next
      rw [if_pos accepts]
      have arrived := (history.arrive settled.stopped next bound).releases rest
      rw [List.append_assoc] at arrived
      exact ⟨arrived, stopped⟩
  | dropped early full =>
      have rejects : ¬b.Accepts block := by rintro (next | ⟨-, room⟩) <;> omega
      rw [if_neg rejects]
      simpa using settled
  | repeated early room present =>
      have accepts : b.Accepts block := Or.inr ⟨early, room⟩
      rw [if_pos accepts]
      refine ⟨?_, settled.stopped⟩
      simpa using history.repeat early present
  | stored early room absent =>
      have accepts : b.Accepts block := Or.inr ⟨early, room⟩
      rw [if_pos accepts]
      refine ⟨?_, ?_⟩
      · simpa using history.store early room absent bound
      · show (b.buffered.set block.height block).get b.expected = none
        rw [FMap.get_set, if_neg (by omega)]
        exact settled.stopped
  | ignored late =>
      have rejects : ¬b.Accepts block := by rintro (next | ⟨early, -⟩) <;> omega
      rw [if_neg rejects]
      simpa using settled

/-- **Every sequence of calls.** -/
theorem Settled.run {arrivals : List OrchestratorShardBlock} (settled : Settled start acc ret b)
    (bound : ∀ block ∈ arrivals, block.height < 2 ^ 64 - 1) :
    Settled start (acc ++ b.accepted arrivals) (ret ++ b.returned arrivals) (b.after arrivals) := by
  induction arrivals generalizing b acc ret with
  | nil =>
      show Settled start (acc ++ []) (ret ++ []) b
      rw [List.append_nil, List.append_nil]
      exact settled
  | cons block rest ih =>
      have first := settled.processed (bound block List.mem_cons_self)
        (b.processed_processBlock block)
      have later := ih first fun block' member => bound block' (List.mem_cons_of_mem _ member)
      rw [List.append_assoc, List.append_assoc] at later
      exact later

end Step

/-! ## The longest prefix -/

section Prefix

variable {start : Nat} {acc ret : List OrchestratorShardBlock} {b : BlockBuffer}

theorem Settled.least (settled : Settled start acc ret b) :
    IsLeast {height | start ≤ height ∧ ∀ block ∈ acc, block.height ≠ height} b.expected := by
  have history := settled.toHistory
  refine ⟨⟨history.started, history.expected_fresh settled.stopped⟩, ?_⟩
  rintro height ⟨from_start, never⟩
  by_contra below
  have listed : height ∈ ret.map (·.height) := by
    rw [history.sequence, List.mem_range'_1]
    omega
  obtain ⟨block, member, rfl⟩ := List.mem_map.1 listed
  exact never block (mem_of_firstAt (history.first block member)).1 rfl

theorem Settled.above (settled : Settled start acc ret b) {height : Nat}
    (present : b.buffered.get height ≠ none) : b.expected < height := by
  obtain ⟨block, listed⟩ := Option.ne_none_iff_exists'.1 present
  have reached := (settled.waiting height block listed).1
  refine lt_of_le_of_ne reached ?_
  rintro rfl
  exact present settled.stopped

/-- A block that is not above the last height `n`, and whose height was never accepted, finds
room: what is buffered lies above the expected height, up to `n`, and has another height. -/
theorem Settled.accepts (settled : Settled start acc ret b) {n : Nat}
    {block : OrchestratorShardBlock} (within : ∀ block' ∈ acc, block'.height ≤ n)
    (fits : (n : Int) - start ≤ b.maxBuffer) (from_start : start ≤ block.height)
    (last : block.height ≤ n) (fresh : ∀ block' ∈ acc, block'.height ≠ block.height) :
    b.Accepts block := by
  have reached : b.expected ≤ block.height := settled.least.2 ⟨from_start, fresh⟩
  rcases reached.eq_or_lt with same | early
  · exact Or.inl same.symm
  · refine Or.inr ⟨early, ?_⟩
    have few : b.buffered.len ≤ ((Finset.Ioc b.expected n).erase block.height).card := by
      refine FMap.len_le_card fun height present => ?_
      have above := settled.above present
      obtain ⟨block', listed⟩ := Option.ne_none_iff_exists'.1 present
      obtain ⟨member, rfl⟩ := mem_of_firstAt (settled.waiting height block' listed).2.2
      exact Finset.mem_erase.2
        ⟨fresh block' member, Finset.mem_Ioc.2 ⟨above, within block' member⟩⟩
    rw [Finset.card_erase_of_mem (Finset.mem_Ioc.2 ⟨early, last⟩), Nat.card_Ioc] at few
    have started := settled.started
    omega

theorem maxBuffer_releases {b b' : BlockBuffer} {released : List OrchestratorShardBlock}
    (done : Releases b released b') : b'.maxBuffer = b.maxBuffer := by
  induction done with
  | stop b => rfl
  | next found rest ih => exact ih

theorem maxBuffer_processed {b b' : BlockBuffer} {block : OrchestratorShardBlock}
    {ready : Option (List OrchestratorShardBlock)} (done : Processed b block ready b') :
    b'.maxBuffer = b.maxBuffer := by
  cases done with
  | ready next rest stopped =>
      have same := maxBuffer_releases rest
      exact same
  | dropped early full => rfl
  | repeated early room present => rfl
  | stored early room absent => rfl
  | ignored late => rfl

theorem maxBuffer_after (b : BlockBuffer) (arrivals : List OrchestratorShardBlock) :
    (b.after arrivals).maxBuffer = b.maxBuffer :=
  answered_invariant (fun b' : BlockBuffer => b'.maxBuffer = b.maxBuffer)
    (fun b' block same => (maxBuffer_processed (b'.processed_processBlock block)).trans same) rfl
    arrivals

theorem mem_arrivals_of_mem_accepted {b : BlockBuffer} {arrivals : List OrchestratorShardBlock}
    {block : OrchestratorShardBlock} (member : block ∈ b.accepted arrivals) : block ∈ arrivals := by
  induction arrivals generalizing b with
  | nil => cases member
  | cons first rest ih =>
      rcases List.mem_append.1 member with here | later
      · split at here
        · rw [List.mem_singleton.1 here]
          exact List.mem_cons_self
        · cases here
      · exact List.mem_cons_of_mem _ (ih later)

end Prefix

/-- **The buffer delivers the longest contiguous prefix.**  After any calls, the blocks returned so
far have the heights from `start` up to the expected one, in sequence, each the first accepted
block of its height; the expected height is the least one never accepted; the buffered heights are
above it, and there are at most `maxBuffer` of them.  If all heights from `start` to `n` and none
above `n` were delivered, and the buffer has room for `n - start` blocks, then all of them were
returned. -/
theorem buffer_delivers_longest_prefix (start : Nat) (maxBuffer : Int)
    (arrivals : List OrchestratorShardBlock) (capacity : 0 ≤ maxBuffer)
    (bound : ∀ block ∈ arrivals, block.height < 2 ^ 64 - 1) :
    let first := newBlockBuffer start maxBuffer
    let b := first.after arrivals
    (first.returned arrivals).map (·.height) = List.range' start (b.expected - start) ∧
    (∀ block ∈ first.returned arrivals,
      firstAt (first.accepted arrivals) block.height = some block) ∧
    IsLeast {height | start ≤ height ∧ ∀ block ∈ first.accepted arrivals, block.height ≠ height}
      b.expected ∧
    (∀ height, b.buffered.get height ≠ none → b.expected < height) ∧
    b.buffered.len ≤ maxBuffer ∧
    ∀ n : Nat, (∀ height, start ≤ height → height ≤ n → ∃ block ∈ arrivals, block.height = height) →
      (∀ block ∈ arrivals, block.height ≤ n) → (n : Int) - start ≤ maxBuffer →
      (first.returned arrivals).map (·.height) = List.range' start (n + 1 - start) := by
  intro first b
  have fresh : Settled start [] [] first := ⟨history_newBlockBuffer start capacity, rfl⟩
  have settled : Settled start (first.accepted arrivals) (first.returned arrivals) b :=
    fresh.run bound
  have limit : b.maxBuffer = maxBuffer := maxBuffer_after first arrivals
  refine ⟨settled.sequence, settled.first, settled.least, fun _ => settled.above,
    limit ▸ settled.room, fun n delivered within fits => ?_⟩
  have started : start ≤ b.expected := settled.started
  -- no height up to `n` is missing: its delivery would have been accepted
  have complete : n < b.expected := by
    by_contra short
    obtain ⟨⟨-, never⟩, -⟩ := settled.least
    obtain ⟨block, member, height⟩ := delivered b.expected started (by omega)
    obtain ⟨before, later, rfl⟩ := List.append_of_mem member
    rw [accepted_append] at never
    have here : Settled start (first.accepted before) (first.returned before)
        (first.after before) :=
      fresh.run fun block' member' => bound block' (List.mem_append_left _ member')
    have fits' : (n : Int) - start ≤ (first.after before).maxBuffer := by
      rw [maxBuffer_after]
      exact fits
    have accepts : (first.after before).Accepts block := by
      refine here.accepts (fun block' member' => ?_) fits' (by omega) (by omega)
        fun block' member' => ?_
      · exact within block' (List.mem_append_left _ (mem_arrivals_of_mem_accepted member'))
      · rw [height]
        exact never block' (List.mem_append_left _ member')
    refine never block (List.mem_append_right _ ?_) height
    rw [BlockBuffer.accepted, if_pos accepts]
    exact List.mem_cons_self
  -- and nothing above `n` was returned
  have bounded : b.expected ≤ max start (n + 1) := by
    refine settled.least.2 ⟨le_max_left _ _, fun block member height => ?_⟩
    have := within block (mem_arrivals_of_mem_accepted member)
    omega
  rw [settled.sequence]
  congr 1
  omega

namespace BufferPrefixPole

def blockAt (height : Nat) : OrchestratorShardBlock := ⟨height, ∅, []⟩

/-- Height 3 before 2, height 2 twice, and height 1 last. -/
def shuffled : List OrchestratorShardBlock := [blockAt 3, blockAt 2, blockAt 2, blockAt 1]

end BufferPrefixPole

open BufferPrefixPole in
/-- A buffer of two blocks puts three in order. -/
theorem shuffled_blocks_in_order :
    ((newBlockBuffer 1 2).returned shuffled).map (·.height) = [1, 2, 3] := by
  obtain ⟨-, -, -, -, -, complete⟩ := buffer_delivers_longest_prefix 1 2 shuffled (by decide)
    (by decide)
  refine complete 3 (fun height from_start last => ?_) (by decide) (by decide)
  have all : ∀ h ∈ List.range' 1 3, ∃ block ∈ shuffled, block.height = h := by decide
  refine all height (List.mem_range'_1.2 ?_)
  omega

open BufferPrefixPole in
-- with room for one block, height 2 is dropped and height 3 waits for it
example :
    ((newBlockBuffer 1 1).returned shuffled).map (·.height) = [1] ∧
      ((newBlockBuffer 1 1).accepted shuffled).map (·.height) = [3, 1] := by
  decide +kernel

end BlockBuffer

end CrossShard.Shard
